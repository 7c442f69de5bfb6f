import PushGuard.Proofs.BlockLines
import PushGuard.Proofs.CodeStream
import PushGuard.Proofs.Effects
import PushGuard.Proofs.Results

/-!
# What is read has known effects

Every opcode that calls asks for a method or a signature as its operand, and both readers give each
opcode the operand that it asks for.  So every instruction of a listing (`recognized_of_read`) and of
a binary body (`Binary.recognized_of_read`) has its callee, and with it a known effect.
-/

namespace PushGuard

/-- What calls names what it calls. -/
theorem Opcode.shape_of_flow_eq_call (code : Opcode) (h : code.flow = .call) :
    code.shape = .method ∨ code.shape = .signature := by
  cases code <;> first | exact Or.inl rfl | exact Or.inr rfl | cases h

/-- Laying out changes offsets only. -/
theorem exists_mem_of_mem_layout (start : Nat) (instructions : List Instruction) (i : Instruction)
    (h : i ∈ layout start instructions) :
    ∃ j ∈ instructions, i.code = j.code ∧ i.operand = j.operand := by
  induction instructions generalizing start with
  | nil => cases h
  | cons first rest ih =>
    rw [layout] at h
    rcases List.mem_cons.1 h with rfl | h
    · exact ⟨first, List.mem_cons_self, rfl, rfl⟩
    · obtain ⟨j, hj, heq⟩ := ih _ h
      exact ⟨j, List.mem_cons_of_mem _ hj, heq⟩

/-! ## Listings -/

/-- The draft becomes an instruction that has its callee. -/
def Draft.HasCallee {L : Type} : Draft L → Prop
  | plain code operand => code.flow = .call → operand.signature?.isSome
  | branch code _ => code.flow ≠ .call
  | switch _ => True

theorem Builder.hasCallee_of_resolveDraft {L : Type} [BEq L] (b : Builder L) (draft : Draft L)
    (i : Instruction) (hdraft : draft.HasCallee) (h : b.resolveDraft draft = .ok i) :
    i.HasCallee := by
  cases draft with
  | plain code operand =>
    obtain rfl := Except.ok.inj h
    exact hdraft
  | branch code label =>
    rw [resolveDraft, bind_eq_ok_iff] at h
    obtain ⟨id, -, hi⟩ := h
    obtain rfl := Except.ok.inj hi
    intro hcall
    exact absurd hcall hdraft
  | switch labels =>
    rw [resolveDraft, bind_eq_ok_iff] at h
    obtain ⟨ids, -, hi⟩ := h
    obtain rfl := Except.ok.inj hi
    intro hcall
    cases hcall

theorem Builder.hasCallee_of_finish {L : Type} [BEq L] (b : Builder L) (body : Body)
    (hdrafts : ∀ draft ∈ b.drafts, draft.HasCallee) (h : b.finish = .ok body) :
    ∀ i ∈ body.instructions, i.HasCallee := by
  rw [finish, bind_eq_ok_iff] at h
  obtain ⟨instructions, hinstructions, h⟩ := h
  rw [bind_eq_ok_iff] at h
  obtain ⟨handlers, -, h⟩ := h
  obtain rfl := Except.ok.inj h
  intro i hi
  obtain ⟨j, hj, hcode, hoperand⟩ := exists_mem_of_mem_layout 0 instructions i hi
  obtain ⟨draft, hdraft, hresolve⟩ := exists_mem_of_mapM _ _ _ hinstructions j hj
  have hcallee := b.hasCallee_of_resolveDraft draft j
    (hdrafts draft (Array.mem_toList_iff.1 hdraft)) hresolve
  unfold Instruction.HasCallee
  rw [hcode, hoperand]
  exact hcallee

namespace Listing

open Text

theorem signature?_of_readOperand (code : Opcode) (text : List Char) (operand : Operand)
    (hcall : code.flow = .call) (h : readOperand code.shape text = .ok operand) :
    operand.signature?.isSome := by
  rcases code.shape_of_flow_eq_call hcall with hshape | hshape
  · rw [hshape] at h
    obtain ⟨method, -, rfl⟩ := (map_eq_ok_iff _ _ _).1 h
    rfl
  · rw [hshape] at h
    obtain ⟨sig, -, rfl⟩ := (map_eq_ok_iff _ _ _).1 h
    rfl

/-- What a line can become: the shape of its opcode's operand decides. -/
theorem readInstruction_cases (line : List Char) (draft : Draft String)
    (h : readInstruction line = .ok draft) :
    ∃ code, Opcode.ofMnemonic? (String.ofList (line.takeWhile fun c => !isBlank c)) = some code ∧
      ((code.shape = .none ∧ draft = .plain code .none) ∨
        (code.shape = .switch ∧ ∃ labels, draft = .switch labels) ∨
        (code.shape.isTarget ∧ ∃ label, draft = .branch code label) ∨
        ∃ operand, readOperand code.shape (trim (line.dropWhile fun c => !isBlank c)) = .ok operand ∧
          draft = .plain code operand) := by
  unfold readInstruction at h
  simp only at h
  split at h
  · cases h
  · next code hcode =>
    refine ⟨code, hcode, ?_⟩
    split at h
    · next hnone =>
      split at h
      · exact Or.inl ⟨hnone, (Except.ok.inj h).symm⟩
      · cases h
    · split at h
      · cases h
      · split at h
        · next hswitch =>
          split at h
          · exact Or.inr (Or.inl ⟨hswitch, _, (Except.ok.inj h).symm⟩)
          · cases h
        · split at h
          · next htarget =>
            exact Or.inr (Or.inr (Or.inl ⟨htarget, _, (Except.ok.inj h).symm⟩))
          · split at h
            · next operand hoperand =>
              exact Or.inr (Or.inr (Or.inr ⟨operand, hoperand, (Except.ok.inj h).symm⟩))
            · cases h

theorem hasCallee_of_readInstruction (line : List Char) (draft : Draft String)
    (h : readInstruction line = .ok draft) : draft.HasCallee := by
  obtain ⟨code, -, hcases⟩ := readInstruction_cases line draft h
  rcases hcases with ⟨hshape, rfl⟩ | ⟨-, labels, rfl⟩ | ⟨htarget, label, rfl⟩ |
    ⟨operand, hoperand, rfl⟩
  · intro hcall
    rcases code.shape_of_flow_eq_call hcall with h | h <;> rw [hshape] at h <;> cases h
  · trivial
  · intro hcall
    rcases code.shape_of_flow_eq_call hcall with h | h <;> rw [h] at htarget <;> cases htarget
  · intro hcall
    exact signature?_of_readOperand code _ operand hcall hoperand

/-- All instructions of the method have their callees. -/
def Block.HasCallees (block : Block) : Prop := ∀ draft ∈ block.builder.drafts, draft.HasCallee

theorem Block.HasCallees.place {block block' : Block} {line : Nat} {label : String}
    (hblock : block.HasCallees) (h : block.place line label = .ok block') : block'.HasCallees := by
  unfold Block.place at h
  split at h
  · cases h
  · obtain rfl := Except.ok.inj h
    exact hblock

theorem Block.HasCallees.add {block : Block} {line : Nat} {text : List Char}
    {statement : Statement} (hblock : block.HasCallees)
    (h : readStatement text = .ok statement) : (block.add line statement).HasCallees := by
  cases statement with
  | handler handler => exact hblock
  | instruction draft =>
    intro other hother
    rcases Array.mem_push.1 hother with hother | rfl
    · exact hblock other hother
    · unfold readStatement at h
      split at h
      · obtain ⟨handler, -, hhandler⟩ := (map_eq_ok_iff _ _ _).1 h
        cases hhandler
      · obtain ⟨draft, hdraft, hsame⟩ := (map_eq_ok_iff _ _ _).1 h
        obtain rfl := Statement.instruction.inj hsame
        exact hasCallee_of_readInstruction text draft hdraft

theorem Block.HasCallees.readLine {block block' : Block} {line : Nat} {text : List Char}
    (hblock : block.HasCallees) (h : block.readLine line text = .ok block') :
    block'.HasCallees := by
  unfold Block.readLine at h
  split at h
  · obtain ⟨statement, hstatement, h⟩ := (bind_eq_ok_iff _ _ _).1 h
    obtain rfl := Except.ok.inj h
    exact hblock.add hstatement
  · obtain ⟨placed, hplaced, h⟩ := (bind_eq_ok_iff _ _ _).1 h
    have hplaced := hblock.place hplaced
    simp only at h
    split at h
    · obtain rfl := Except.ok.inj h
      exact hplaced
    · obtain ⟨statement, hstatement, h⟩ := (bind_eq_ok_iff _ _ _).1 h
      obtain rfl := Except.ok.inj h
      exact hplaced.add hstatement

theorem Block.HasCallees.finish {block : Block} {line : Nat} {body : Body}
    (hblock : block.HasCallees) (h : block.finish line = .ok body) :
    ∀ i ∈ body.instructions, i.HasCallee := by
  unfold Block.finish at h
  split at h
  · cases h
  · split at h
    · next body' hbody =>
      obtain rfl := Except.ok.inj h
      exact block.builder.hasCallee_of_finish body' hblock hbody
    · cases h

/-- All instructions that are read so far have their callees. -/
structure Progress.HasCallees (progress : Progress) : Prop where
  bodies : ∀ body ∈ progress.bodies, ∀ i ∈ body.instructions, i.HasCallee
  block : ∀ block, progress.block = some block → block.HasCallees

theorem Progress.HasCallees.readLine {progress progress' : Progress} {line : Nat}
    {raw : List Char} (hprogress : progress.HasCallees)
    (h : Listing.readLine progress line raw = .ok progress') : progress'.HasCallees := by
  unfold Listing.readLine at h
  simp only at h
  split at h
  · obtain rfl := Except.ok.inj h
    exact hprogress
  · split at h
    · cases h
    · -- a method begins, without instructions
      split at h
      · cases h
      · obtain rfl := Except.ok.inj h
        refine ⟨hprogress.bodies, fun block hblock => ?_⟩
        obtain rfl := Option.some.inj hblock
        intro draft hdraft
        cases Array.not_mem_empty draft hdraft
    · next block _ hblock =>
      split at h
      · -- the method ends
        obtain ⟨body, hbody, h⟩ := (bind_eq_ok_iff _ _ _).1 h
        obtain rfl := Except.ok.inj h
        refine ⟨fun other hother => ?_, fun block hblock => by cases hblock⟩
        rcases Array.mem_push.1 hother with hother | rfl
        · exact hprogress.bodies other hother
        · exact (hprogress.block block hblock).finish hbody
      · split at h
        · next block' hblock' =>
          obtain rfl := Except.ok.inj h
          refine ⟨hprogress.bodies, fun other hother => ?_⟩
          obtain rfl := Option.some.inj hother
          exact (hprogress.block block hblock).readLine hblock'
        · cases h
    · split at h <;> cases h

/-- The instructions of a listing have known effects. -/
theorem recognized_of_read (source : String) (bodies : List Body) (h : read source = .ok bodies) :
    ∀ body ∈ bodies, ∀ i ∈ body.instructions, i.Recognized := by
  rw [read, ofLines, bind_eq_ok_iff] at h
  obtain ⟨progress, hprogress, h⟩ := h
  have hstart : Progress.HasCallees {} := by
    refine ⟨fun body hbody => ?_, fun block hblock => ?_⟩
    · cases Array.not_mem_empty body hbody
    · cases hblock
  have hcallees := readLines_invariant (fun _ => Progress.HasCallees)
    (fun _ _ _ _ hbefore hline => hbefore.readLine hline) hstart hprogress
  split at h
  · cases h
  · obtain rfl := Except.ok.inj h
    intro body hbody i hi
    exact (hcallees.bodies body (Array.mem_toList_iff.1 hbody) i hi).recognized

end Listing

/-! ## Binary bodies -/

namespace Binary

/-- The instruction is no call, or its operand has the signature of what is called. -/
def CodedInstruction.HasCallee (i : CodedInstruction) : Prop :=
  i.code.flow = .call → ∃ operand, i.operand = .plain operand ∧ operand.signature?.isSome

theorem hasCallee_of_readInstruction (tokens : TokenTable) (offset : Nat)
    (bytes rest : List UInt8) (i : CodedInstruction)
    (h : readInstruction tokens offset bytes = .ok (i, rest)) : i.HasCallee := by
  rw [readInstruction, bind_eq_ok_iff] at h
  obtain ⟨⟨code, afterCode⟩, -, h⟩ := h
  simp only at h
  rw [bind_eq_ok_iff] at h
  obtain ⟨⟨operand, afterOperand⟩, hoperand, h⟩ := h
  obtain ⟨rfl, -⟩ := Prod.mk.inj (Except.ok.inj h)
  intro hcall
  rcases code.shape_of_flow_eq_call hcall with hshape | hshape
  · rw [hshape] at hoperand
    obtain ⟨-, -, method, rfl⟩ := readToken_eq_ok hoperand
    exact ⟨.method method, rfl, rfl⟩
  · rw [hshape] at hoperand
    obtain ⟨-, -, sig, rfl⟩ := readToken_eq_ok hoperand
    exact ⟨.signature sig, rfl, rfl⟩

theorem hasCallee_of_readCodeFrom (tokens : TokenTable) (offset : Nat) (bytes : List UInt8)
    (starts : List CodedInstruction) (h : readCodeFrom tokens offset bytes = .ok starts) :
    ∀ i ∈ starts, i.HasCallee := by
  induction starts generalizing offset bytes with
  | nil =>
    intro i hi
    cases hi
  | cons first later ih =>
    rcases readCodeFrom_cases h with ⟨-, hnil⟩ | ⟨c, rest, later', hcons, hread, hlater⟩
    · cases hnil
    · obtain ⟨rfl, rfl⟩ := List.cons.inj hcons
      intro i hi
      rcases List.mem_cons.1 hi with rfl | hi
      · exact hasCallee_of_readInstruction tokens offset bytes rest i hread
      · exact ih _ rest hlater i hi

/-- The instructions of a binary body have known effects. -/
theorem recognized_of_read (tokens : TokenTable) (name : String) (bytes : List UInt8) (body : Body)
    (h : read tokens name bytes = .ok body) : ∀ i ∈ body.instructions, i.Recognized := by
  obtain ⟨header, code, starts, -, -, -, -, hstarts, -, hbody⟩ := exists_parts_of_read h
  rw [hbody]
  intro i hi
  obtain ⟨coded, hcoded, rfl⟩ := List.mem_map.1 hi
  apply Instruction.HasCallee.recognized
  intro hcall
  obtain ⟨operand, hoperand, hsig⟩ := hasCallee_of_readCodeFrom tokens 0 code starts hstarts
    coded hcoded hcall
  show (coded.operand.link starts).signature?.isSome
  rw [hoperand]
  exact hsig

end Binary

end PushGuard
