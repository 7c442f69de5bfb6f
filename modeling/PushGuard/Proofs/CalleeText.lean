import Mathlib.Algebra.Order.Ring.Int
import Mathlib.Data.List.Infix
import Mathlib.Tactic.MkIffOfInductiveProp
import PushGuard.Listing.Callee
import PushGuard.Proofs.TextReading

/-!
# Reading callees back

A signature is read back from its text, and a method reference from its full name behind the words
that say how the receiver is passed, with or without generic arguments behind the method's name
(`read_callee_text`).

The reader cuts the text at its first parenthesis, its last `::`, the last blank before that and the
commas outside of brackets.  `IsParameter`, `IsResult` and `MethodRef.Spellable` ask just for what
keeps these cuts apart: there is one lemma for each cut, and each holds whatever follows in the text.
-/

namespace PushGuard

open Text

/-! ## What can be spelled -/

/-- How many more brackets a text opens than it closes. -/
def bracketDepth (s : List Char) : Int :=
  (s.countP (· ∈ ['<', '[', '(']) : Int) - s.countP (· ∈ ['>', ']', ')'])

/-- The type of a parameter.  Its brackets are closed, and commas stand only inside of them. -/
@[mk_iff]
structure IsParameter (p : String) : Prop where
  nonempty : p ≠ ""
  trimmed : trim p.toList = p.toList
  closed : bracketDepth p.toList = 0
  commas : ∀ k < p.toList.length, p.toList[k]? = some ',' → bracketDepth (p.toList.take k) ≠ 0

instance (p : String) : Decidable (IsParameter p) := decidable_of_iff _ (isParameter_iff p).symm

def firstWord (s : List Char) : List Char := s.takeWhile fun c => !isBlank c

/-- The type of a result, which is neither a spelling of no result nor begins like a convention. -/
@[mk_iff]
structure IsResult (r : String) : Prop where
  nonempty : r ≠ ""
  trimmed : trim r.toList = r.toList
  noParenthesis : '(' ∉ r.toList
  returns : r ≠ "void" ∧ r ≠ "System.Void"
  noConvention :
    firstWord r.toList ≠ "instance".toList ∧ firstWord r.toList ≠ "explicit".toList

instance (r : String) : Decidable (IsResult r) := decidable_of_iff _ (isResult_iff r).symm

@[mk_iff]
structure Signature.Spellable (sig : Signature) : Prop where
  parameters : ∀ p ∈ sig.parameters, IsParameter p
  result : ∀ r ∈ sig.returnType, IsResult r

instance (sig : Signature) : Decidable sig.Spellable :=
  decidable_of_iff _ (Signature.spellable_iff sig).symm

/-- A name that neither a blank nor a list of parameters cuts. -/
@[mk_iff]
structure IsUncut (name : String) : Prop where
  nonempty : name ≠ ""
  noBlank : name.toList.any isBlank = false
  noParenthesis : '(' ∉ name.toList

instance (name : String) : Decidable (IsUncut name) := decidable_of_iff _ (isUncut_iff name).symm

theorem IsUncut.toList_ne_nil {name : String} (h : IsUncut name) : name.toList ≠ [] :=
  fun hnil => h.nonempty (String.toList_eq_nil_iff.1 hnil)

theorem IsUncut.isBlank_eq_false {name : String} (h : IsUncut name) :
    ∀ c ∈ name.toList, isBlank c = false :=
  fun c hc => Bool.eq_false_iff.2 (List.any_eq_false.1 h.noBlank c hc)

@[mk_iff]
structure MethodRef.Spellable (m : MethodRef) : Prop where
  signature : m.signature.Spellable
  declaringType : IsUncut m.declaringType
  name : IsUncut m.name
  noMember : ¬ [':', ':'] <:+: m.name.toList
  noColon : m.name.toList.head? ≠ some ':'
  noGenerics : m.name.toList.getLast? ≠ some '>'

instance (m : MethodRef) : Decidable m.Spellable :=
  decidable_of_iff _ (MethodRef.spellable_iff m).symm

/-- The full name with generic arguments behind the method's own name. -/
def MethodRef.fullNameWith (generics : String) (m : MethodRef) : String :=
  m.signature.returnText ++ " " ++ m.declaringType ++ "::" ++ m.name ++ generics
    ++ m.signature.parameterText

theorem MethodRef.fullNameWith_empty (m : MethodRef) : m.fullNameWith "" = m.fullName := by
  rw [fullNameWith, fullName, String.append_empty]

namespace Listing

/-! ## Lists with commas -/

theorem bracketDepth_cons (c : Char) (s : List Char) :
    bracketDepth (c :: s) = bracketStep c + bracketDepth s := by
  unfold bracketDepth bracketStep
  rw [List.countP_cons, List.countP_cons]
  by_cases hopens : c = '<' ∨ c = '[' ∨ c = '('
  · have hcloses : ¬ (c = '>' ∨ c = ']' ∨ c = ')') := by
      rcases hopens with rfl | rfl | rfl <;> decide
    simp [hopens, hcloses]
    omega
  · by_cases hcloses : c = '>' ∨ c = ']' ∨ c = ')'
    · simp [hopens, hcloses]
      omega
    · simp [hopens, hcloses]

theorem bracketDepth_eq_zero {s : List Char} (h : ∀ c ∈ s, bracketStep c = 0) :
    bracketDepth s = 0 := by
  induction s with
  | nil => rfl
  | cons c s ih =>
    rw [bracketDepth_cons, h c List.mem_cons_self, ih fun c hc => h c (List.mem_cons_of_mem _ hc),
      Int.add_zero]

/-- A text without commas at the depth zero stays in one part, however deep it begins. -/
theorem splitCommas_append {s rest part : List Char} {parts : List (List Char)} {depth : Int}
    (hcommas : ∀ before after, s = before ++ ',' :: after → depth + bracketDepth before ≠ 0)
    (h : splitCommas (depth + bracketDepth s) rest = part :: parts) :
    splitCommas depth (s ++ rest) = (s ++ part) :: parts := by
  induction s generalizing depth with
  | nil =>
    rw [show bracketDepth [] = 0 from rfl, Int.add_zero] at h
    exact h
  | cons c s ih =>
    have hc : ¬ (c = ',' ∧ depth = 0) := by
      rintro ⟨rfl, rfl⟩
      exact hcommas [] s rfl rfl
    have htail : splitCommas (depth + bracketStep c) (s ++ rest) = (s ++ part) :: parts := by
      apply ih
      · intro before after hs
        have hdepth := hcommas (c :: before) after (by rw [hs]; rfl)
        rwa [bracketDepth_cons, ← Int.add_assoc] at hdepth
      · rwa [bracketDepth_cons, ← Int.add_assoc] at h
    rw [List.cons_append, splitCommas, if_neg hc, htail]
    rfl

theorem splitCommas_parameter {p : String} (hp : IsParameter p) {rest part : List Char}
    {parts : List (List Char)} (h : splitCommas 0 rest = part :: parts) :
    splitCommas 0 (p.toList ++ rest) = (p.toList ++ part) :: parts := by
  apply splitCommas_append
  · intro before after hs
    have hlt : before.length < p.toList.length := by
      rw [hs, List.length_append, List.length_cons]
      omega
    have hcomma : p.toList[before.length]? = some ',' := by
      rw [hs, List.getElem?_append_right (Nat.le_refl _), Nat.sub_self]
      rfl
    have hdepth := hp.commas before.length hlt hcomma
    rw [hs, List.take_left] at hdepth
    rwa [Int.zero_add]
  · rw [hp.closed]
    exact h

/-- Each part but the first keeps the blank in front of it until it is trimmed. -/
theorem splitCommas_intercalate {ps : List String} (h : ∀ p ∈ ps, IsParameter p) (hne : ps ≠ []) :
    ∃ part parts, splitCommas 0 (String.intercalate ", " ps).toList = part :: parts ∧
      (part :: parts).map trim = ps.map String.toList := by
  induction ps with
  | nil => exact absurd rfl hne
  | cons p ps ih =>
    have hp := h p List.mem_cons_self
    cases ps with
    | nil =>
      have hcut : splitCommas 0 (p.toList ++ []) = [p.toList ++ []] := splitCommas_parameter hp rfl
      rw [List.append_nil] at hcut
      exact ⟨_, _, by rw [String.intercalate_singleton, hcut], by simp [hp.trimmed]⟩
    | cons next ps =>
      obtain ⟨part, parts, hcut, htrim⟩ :=
        ih (fun q hq => h q (List.mem_cons_of_mem _ hq)) (List.cons_ne_nil _ _)
      have hblank : splitCommas 0 (' ' :: (String.intercalate ", " (next :: ps)).toList) =
          (' ' :: part) :: parts := by
        rw [splitCommas, if_neg (by simp), show bracketStep ' ' = 0 from rfl, Int.add_zero, hcut]
      have hcomma : splitCommas 0 (',' :: ' ' :: (String.intercalate ", " (next :: ps)).toList) =
          [] :: (' ' :: part) :: parts := by
        rw [splitCommas, if_pos ⟨rfl, rfl⟩, hblank]
      refine ⟨p.toList ++ [], (' ' :: part) :: parts, ?_, ?_⟩
      · rw [String.intercalate_cons_cons, String.toList_append, String.toList_append,
          List.append_assoc]
        exact splitCommas_parameter hp hcomma
      · rw [List.append_nil, List.map_cons, List.map_cons, trim_cons_of_isBlank rfl, hp.trimmed,
          ← List.map_cons, htrim]
        rfl

theorem splitTopLevel_intercalate {ps : List String} (h : ∀ p ∈ ps, IsParameter p) :
    splitTopLevel (String.intercalate ", " ps).toList = ps.map String.toList := by
  unfold splitTopLevel
  cases ps with
  | nil => rfl
  | cons p ps =>
    obtain ⟨part, parts, hcut, htrim⟩ := splitCommas_intercalate h (List.cons_ne_nil _ _)
    have hp := h p List.mem_cons_self
    obtain ⟨c, s, hchars⟩ := List.exists_cons_of_ne_nil fun hnil =>
      hp.nonempty (String.toList_eq_nil_iff.1 hnil)
    have hblank : isBlank c = false := (trim_eq_self_iff.1 hp.trimmed).1 c (by rw [hchars]; rfl)
    have hmem : c ∈ (String.intercalate ", " (p :: ps)).toList := by
      have hc : c ∈ p.toList := by
        rw [hchars]
        exact List.mem_cons_self
      cases ps with
      | nil => rwa [String.intercalate_singleton]
      | cons next ps =>
        rw [String.intercalate_cons_cons, String.toList_append, String.toList_append]
        exact List.mem_append_left _ (List.mem_append_left _ hc)
    rw [if_neg fun hempty => trim_ne_nil hmem hblank (List.isEmpty_iff.1 hempty), hcut, htrim]

/-! ## Conventions -/

theorem takeConvention_instance (convention : Convention) {s rest : List Char}
    (h : afterWord? "instance" s = some rest) :
    takeConvention convention s = takeConvention { convention with hasThis := true } rest := by
  rw [takeConvention]
  split
  · next rest' hrest =>
    obtain rfl := Option.some.inj (hrest.symm.trans h)
    rfl
  · next hnone =>
    rw [h] at hnone
    cases hnone

theorem takeConvention_explicit (convention : Convention) {s rest : List Char}
    (hinstance : afterWord? "instance" s = none) (h : afterWord? "explicit" s = some rest) :
    takeConvention convention s = takeConvention { convention with explicitThis := true } rest := by
  rw [takeConvention]
  split
  · next hsome =>
    rw [hinstance] at hsome
    cases hsome
  · split
    · next rest' hrest =>
      obtain rfl := Option.some.inj (hrest.symm.trans h)
      rfl
    · next hnone =>
      rw [h] at hnone
      cases hnone

theorem takeConvention_of_none (convention : Convention) {s : List Char}
    (hinstance : afterWord? "instance" s = none) (hexplicit : afterWord? "explicit" s = none) :
    takeConvention convention s = (convention, s) := by
  rw [takeConvention]
  split
  · next hsome =>
    rw [hinstance] at hsome
    cases hsome
  · split
    · next hsome =>
      rw [hexplicit] at hsome
      cases hsome
    · rfl

theorem afterWord?_append (word : String) {s : List Char} (hhead : ∀ c ∈ s.head?, isBlank c = false) :
    afterWord? word (word.toList ++ ' ' :: s) = some s := by
  have hsplit : word.toList ++ ' ' :: s = word.toList ++ [' '] ++ s := by simp
  rw [afterWord?, hsplit, after?_append, Option.map_some, trimStart_eq_self_iff.2 hhead]

section

variable {s : List Char} (hhead : ∀ c ∈ s.head?, isBlank c = false)
  (hinstance : afterWord? "instance" s = none) (hexplicit : afterWord? "explicit" s = none)
include hhead hinstance hexplicit

theorem takeConvention_explicitText (hasThis explicitThis : Bool) :
    takeConvention { hasThis } ((if explicitThis then "explicit " else "").toList ++ s) =
      ({ hasThis, explicitThis }, s) := by
  cases explicitThis with
  | false => exact takeConvention_of_none _ hinstance hexplicit
  | true =>
    have hword : "explicit ".toList = "explicit".toList ++ [' '] := by decide
    have hafter : afterWord? "explicit" ("explicit ".toList ++ s) = some s := by
      rw [hword, List.append_assoc]
      exact afterWord?_append "explicit" hhead
    have hnot : afterWord? "instance" ("explicit ".toList ++ s) = none := rfl
    show takeConvention _ ("explicit ".toList ++ s) = _
    rw [takeConvention_explicit _ hnot hafter, takeConvention_of_none _ hinstance hexplicit]

/-- The words of a convention are taken, and nothing of what follows. -/
theorem takeConvention_conventionText (sig : Signature) :
    takeConvention {} (sig.conventionText.toList ++ s) = (sig.convention, s) := by
  rw [Signature.conventionText, String.toList_append, List.append_assoc]
  have hrest := takeConvention_explicitText hhead hinstance hexplicit sig.convention.hasThis
    sig.convention.explicitThis
  have hblank : ∀ c ∈ ((if sig.convention.explicitThis then "explicit " else "").toList ++ s).head?,
      isBlank c = false := by
    cases sig.convention.explicitThis with
    | false => exact hhead
    | true =>
      rintro c ⟨⟩
      rfl
  cases hthis : sig.convention.hasThis with
  | false =>
    rw [hthis] at hrest
    refine Eq.trans hrest ?_
    rw [← hthis]
  | true =>
    have hword : "instance ".toList = "instance".toList ++ [' '] := by decide
    have hafter := afterWord?_append "instance" hblank
    rw [hthis] at hrest
    rw [if_pos rfl, hword, List.append_assoc, List.singleton_append,
      takeConvention_instance {} hafter, hrest, ← hthis]

end

/-! ## Result types -/

/-- A text whose first word is another one does not begin with the word, whatever follows it. -/
theorem afterWord?_eq_none {word : String} (hword : IsUncut word)
    {r : List Char} (hfirst : firstWord r ≠ word.toList) {c : Char} (hc : c ∉ word.toList)
    (rest : List Char) : afterWord? word (r ++ c :: rest) = none := by
  have hne : r ≠ word.toList := by
    rintro rfl
    have hcut : firstWord (word.toList ++ []) = word.toList := (cut_at_blank hword.isBlank_eq_false (by rintro c ⟨⟩)).1
    rw [List.append_nil] at hcut
    exact hfirst hcut
  rw [afterWord?, Option.map_eq_none_iff, Option.eq_none_iff_forall_ne_some]
  intro tail htail
  have hsplit := eq_append_of_after? htail
  rw [List.append_assoc] at hsplit
  rcases List.append_eq_append_iff.1 hsplit with ⟨more, hmore, hrest⟩ | ⟨more, hmore, hrest⟩
  · -- the text ends within the word, so that `c` is one of its letters
    cases more with
    | nil => exact hne (by rw [hmore, List.append_nil])
    | cons d more =>
      obtain ⟨rfl, -⟩ := List.cons.inj hrest
      apply hc
      rw [hmore]
      exact List.mem_append_right _ List.mem_cons_self
  · cases more with
    | nil => exact hne (by rw [hmore, List.append_nil])
    | cons d more =>
      obtain ⟨rfl, -⟩ := List.cons.inj hrest
      apply hfirst
      rw [hmore]
      refine (cut_at_blank hword.isBlank_eq_false ?_).1
      rintro e ⟨⟩
      rfl

/-- What a result type has for the reader, the spelling of no result included. -/
structure IsReturnText (r : List Char) : Prop where
  nonempty : r ≠ []
  trimmed : trim r = r
  noParenthesis : '(' ∉ r
  noConvention : firstWord r ≠ "instance".toList ∧ firstWord r ≠ "explicit".toList

variable {sig : Signature} {m : MethodRef}

theorem isReturnText (h : sig.Spellable) :
    IsReturnText sig.returnText.toList ∧ resultType? sig.returnText.toList = sig.returnType := by
  unfold Signature.returnText
  cases hresult : sig.returnType with
  | none => exact ⟨⟨by decide, by decide, by decide, by decide⟩, by decide⟩
  | some r =>
    have hr := h.result r hresult
    refine ⟨⟨fun hnil => hr.nonempty (String.toList_eq_nil_iff.1 hnil), hr.trimmed, hr.noParenthesis,
      hr.noConvention⟩, ?_⟩
    rw [Option.getD_some, resultType?, String.ofList_toList, if_neg (not_or.2 hr.returns)]

theorem IsReturnText.isBlank_head? {r : List Char} (h : IsReturnText r) (rest : List Char) :
    ∀ c ∈ (r ++ rest).head?, isBlank c = false := by
  intro c hc
  obtain ⟨d, s, rfl⟩ := List.exists_cons_of_ne_nil h.nonempty
  exact (trim_eq_self_iff.1 h.trimmed).1 c hc

/-- No convention is taken from a result type that a blank or a parenthesis follows. -/
theorem IsReturnText.takeConvention {r : List Char} (h : IsReturnText r) (sig : Signature) {c : Char}
    (hc : c = ' ' ∨ c = '(') (rest : List Char) :
    takeConvention {} (sig.conventionText.toList ++ (r ++ c :: rest)) =
      (sig.convention, r ++ c :: rest) := by
  have hinstance : c ∉ "instance".toList := by rcases hc with rfl | rfl <;> decide
  have hexplicit : c ∉ "explicit".toList := by rcases hc with rfl | rfl <;> decide
  exact takeConvention_conventionText (h.isBlank_head? _)
    (afterWord?_eq_none (by decide) h.noConvention.1 hinstance rest)
    (afterWord?_eq_none (by decide) h.noConvention.2 hexplicit rest) sig

/-! ## Parameter lists -/

theorem toList_parameterText (sig : Signature) : sig.parameterText.toList =
    '(' :: ((String.intercalate ", " sig.parameters).toList ++ [')']) := by
  rw [Signature.parameterText, String.toList_append, String.toList_append]
  rfl

theorem splitParameters_append (h : sig.Spellable) {head : List Char} (hhead : '(' ∉ head) :
    splitParameters (head ++ sig.parameterText.toList) = .ok (trim head, sig.parameters) := by
  obtain ⟨htake, hdrop⟩ := cut_at_first hhead ((String.intercalate ", " sig.parameters).toList ++ [')'])
  unfold splitParameters
  rw [toList_parameterText, htake, hdrop]
  simp only [before?_append, splitTopLevel_intercalate h.parameters, map_ofList_toList]

/-! ## Generic arguments -/

/-- Every `>` closes a `<` in front of it, and every `<` is closed. -/
@[mk_iff]
structure BalancedAngles (s : List Char) : Prop where
  nested : ∀ front, front <+: s → front.count '>' ≤ front.count '<'
  closed : s.count '<' = s.count '>'

instance (s : List Char) : Decidable (BalancedAngles s) :=
  decidable_of_iff ((∀ front ∈ s.inits, front.count '>' ≤ front.count '<') ∧ s.count '<' = s.count '>')
    (by simp only [List.mem_inits, balancedAngles_iff])

/-- Going back, a balanced text is left at the depth at which it was entered. -/
theorem beforeGroup?_append {reversed : List Char} {depth : Nat}
    (h : ∀ back, back <+: reversed → back.count '<' < depth + back.count '>') (rest : List Char) :
    beforeGroup? depth (reversed ++ rest) =
      beforeGroup? (depth + reversed.count '>' - reversed.count '<') rest := by
  induction reversed generalizing depth with
  | nil => rfl
  | cons c reversed ih =>
    have htail : ∀ back, back <+: reversed →
        (c :: back).count '<' < depth + (c :: back).count '>' :=
      fun back hback => h (c :: back) (List.cons_prefix_cons.2 ⟨rfl, hback⟩)
    rw [List.cons_append, beforeGroup?]
    by_cases hcloses : c = '>'
    · subst hcloses
      rw [if_pos rfl, ih, List.count_cons_self, List.count_cons_of_ne (by decide)]
      · congr 1
        omega
      · intro back hback
        have := htail back hback
        rw [List.count_cons_self, List.count_cons_of_ne (by decide)] at this
        omega
    · by_cases hopens : c = '<'
      · subst hopens
        have hdepth := htail [] (List.nil_prefix)
        rw [List.count_cons_self, List.count_cons_of_ne (by decide), List.count_nil, List.count_nil]
          at hdepth
        rw [if_neg (by decide), if_pos rfl, if_neg (by omega), ih, List.count_cons_self,
          List.count_cons_of_ne (by decide)]
        · congr 1
          omega
        · intro back hback
          have := htail back hback
          rw [List.count_cons_self, List.count_cons_of_ne (by decide)] at this
          omega
      · rw [if_neg hcloses, if_neg hopens, ih, List.count_cons_of_ne hcloses,
          List.count_cons_of_ne hopens]
        intro back hback
        have := htail back hback
        rwa [List.count_cons_of_ne hcloses, List.count_cons_of_ne hopens] at this

theorem BalancedAngles.count_reverse {s back : List Char} (h : BalancedAngles s)
    (hback : back <+: s.reverse) : back.count '<' ≤ back.count '>' := by
  obtain ⟨rest, hrest⟩ := hback
  have hs : s = rest.reverse ++ back.reverse := by
    rw [← List.reverse_append, hrest, List.reverse_reverse]
  have hfront := h.nested rest.reverse ⟨back.reverse, hs.symm⟩
  have hclosed := h.closed
  rw [hs, List.count_append, List.count_append, List.count_reverse, List.count_reverse,
    List.count_reverse, List.count_reverse] at hclosed
  rw [List.count_reverse, List.count_reverse] at hfront
  omega

theorem dropGenerics_of_ne {s : List Char} (h : s.getLast? ≠ some '>') : dropGenerics s = s :=
  if_neg h

/-- Generic arguments are dropped as a whole, however deep they are nested. -/
theorem dropGenerics_append {arguments : List Char} (h : BalancedAngles arguments)
    (s : List Char) : dropGenerics (s ++ '<' :: (arguments ++ ['>'])) = s := by
  have hreverse : (s ++ '<' :: (arguments ++ ['>'])).reverse =
      '>' :: (arguments.reverse ++ '<' :: s.reverse) := by simp
  have hgroup : beforeGroup? 0 ('>' :: (arguments.reverse ++ '<' :: s.reverse)) =
      some s.reverse := by
    rw [beforeGroup?, if_pos rfl, beforeGroup?_append, beforeGroup?, if_neg (by decide), if_pos rfl,
      List.count_reverse, List.count_reverse, h.closed, if_pos (by omega)]
    intro back hback
    have := h.count_reverse hback
    omega
  have hlast : (s ++ '<' :: (arguments ++ ['>'])).getLast? = some '>' := by
    rw [← List.head?_reverse, hreverse]
    rfl
  unfold dropGenerics
  rw [if_pos hlast, hreverse, hgroup]
  exact List.reverse_reverse s

/-! ## The last `::` -/

theorem splitMember?_cons {c : Char} {s : List Char} (h : ¬ (c = ':' ∧ s.head? = some ':')) :
    splitMember? (c :: s) = (splitMember? s).map fun split => (c :: split.1, split.2) := by
  rw [splitMember?]
  rintro before rfl rfl
  exact h ⟨rfl, rfl⟩

theorem splitMember?_append {reversed : List Char} (hmember : ¬ [':', ':'] <:+: reversed)
    (hlast : reversed.getLast? ≠ some ':') (before : List Char) :
    splitMember? (reversed ++ ':' :: ':' :: before) = some (reversed, before) := by
  induction reversed with
  | nil => rfl
  | cons c reversed ih =>
    have hc : ¬ (c = ':' ∧ (reversed ++ ':' :: ':' :: before).head? = some ':') := by
      rintro ⟨rfl, hhead⟩
      cases reversed with
      | nil => exact hlast rfl
      | cons d reversed =>
        obtain rfl := Option.some.inj hhead
        exact hmember ⟨[], reversed, rfl⟩
    have htail := ih (fun hinner => hmember (hinner.trans (List.suffix_cons c reversed).isInfix)) ?_
    · rw [List.cons_append, splitMember?_cons hc, htail]
      rfl
    · intro hcolon
      apply hlast
      rw [List.getLast?_cons, hcolon]
      rfl

/-! ## Signatures and methods -/

theorem isBlank_head?_conventionText (sig : Signature) {s : List Char}
    (h : ∀ c ∈ s.head?, isBlank c = false) :
    ∀ c ∈ (sig.conventionText.toList ++ s).head?, isBlank c = false := by
  rw [Signature.conventionText, String.toList_append]
  cases sig.convention.hasThis with
  | true =>
    rintro c ⟨⟩
    rfl
  | false =>
    cases sig.convention.explicitThis with
    | true =>
      rintro c ⟨⟩
      rfl
    | false => exact h

/-- A text that begins with a convention and a result type and ends with parameters is trimmed. -/
theorem trim_callee {r : List Char} (hr : IsReturnText r) (sig : Signature) (s : List Char) :
    trim (sig.conventionText.toList ++ (r ++ (s ++ sig.parameterText.toList))) =
      sig.conventionText.toList ++ (r ++ (s ++ sig.parameterText.toList)) := by
  rw [trim_eq_self_iff]
  refine ⟨isBlank_head?_conventionText sig (hr.isBlank_head? _), fun c hc => ?_⟩
  rw [toList_parameterText, ← List.cons_append, ← List.append_assoc, ← List.append_assoc,
    ← List.append_assoc, List.getLast?_concat] at hc
  obtain rfl := Option.some.inj hc
  rfl

theorem readSignature_text (h : sig.Spellable) : readSignature sig.text.toList = .ok sig := by
  obtain ⟨hr, hresult⟩ := isReturnText h
  have htext : sig.text.toList = sig.conventionText.toList ++ (sig.returnText.toList ++
      ([] ++ sig.parameterText.toList)) := by
    rw [Signature.text, String.toList_append, String.toList_append, List.append_assoc]
    rfl
  have hconvention := hr.takeConvention sig (Or.inr rfl)
    ((String.intercalate ", " sig.parameters).toList ++ [')'])
  rw [← toList_parameterText] at hconvention
  unfold readSignature
  rw [htext, trim_callee hr, List.nil_append]
  simp only [hconvention, splitParameters_append h hr.noParenthesis, hr.trimmed, bind, Except.bind,
    List.isEmpty_iff, if_neg hr.nonempty, hresult]
  rfl

/-- A method in front of its generic arguments and parameters. -/
def memberText (m : MethodRef) : List Char :=
  m.signature.returnText.toList ++ ' ' :: (m.declaringType.toList ++ ':' :: ':' :: m.name.toList)

theorem splitMember?_memberText (h : m.Spellable) :
    splitMember? (memberText m).reverse = some (m.name.toList.reverse,
      m.declaringType.toList.reverse ++ ' ' :: m.signature.returnText.toList.reverse) := by
  have hreverse : (memberText m).reverse = m.name.toList.reverse ++ ':' :: ':' ::
      (m.declaringType.toList.reverse ++ ' ' :: m.signature.returnText.toList.reverse) := by
    simp [memberText]
  rw [hreverse, splitMember?_append]
  · intro hinner
    exact h.noMember (List.reverse_infix.1 hinner)
  · rw [List.getLast?_reverse]
    exact h.noColon

theorem parenthesis_not_mem_memberText (h : m.Spellable) : '(' ∉ memberText m := by
  have hresult := (isReturnText h.signature).1.noParenthesis
  simp [memberText, hresult, h.declaringType.noParenthesis, h.name.noParenthesis]

/-- Behind the last `::` and the last blank before it stand the name and its type. -/
theorem readMethod_memberText (h : m.Spellable) {generics : List Char} (hparenthesis : '(' ∉ generics)
    (hdrop : dropGenerics (trim (memberText m ++ generics)) = memberText m) :
    readMethod (m.signature.conventionText.toList ++ (memberText m ++ (generics ++
      m.signature.parameterText.toList))) = .ok m := by
  obtain ⟨hr, hresult⟩ := isReturnText h.signature
  have htype : ∀ c ∈ m.declaringType.toList.reverse, isBlank c = false :=
    fun c hc => h.declaringType.isBlank_eq_false c (List.mem_reverse.1 hc)
  have htypeNe : m.declaringType.toList.reverse ≠ [] := fun hnil =>
    h.declaringType.toList_ne_nil (List.reverse_eq_nil_iff.1 hnil)
  have hnameNe : m.name.toList.reverse ≠ [] := fun hnil =>
    h.name.toList_ne_nil (List.reverse_eq_nil_iff.1 hnil)
  have htext : memberText m ++ (generics ++ m.signature.parameterText.toList) =
      m.signature.returnText.toList ++ ((' ' :: (m.declaringType.toList ++ ':' :: ':' ::
        m.name.toList) ++ generics) ++ m.signature.parameterText.toList) := by
    simp [memberText]
  have hconvention : takeConvention {} (m.signature.conventionText.toList ++ (memberText m ++
      (generics ++ m.signature.parameterText.toList))) =
      (m.signature.convention, memberText m ++ (generics ++ m.signature.parameterText.toList)) := by
    rw [htext]
    exact hr.takeConvention m.signature (Or.inl rfl) _
  have hparameters : splitParameters (memberText m ++ (generics ++
      m.signature.parameterText.toList)) =
      .ok (trim (memberText m ++ generics), m.signature.parameters) := by
    rw [← List.append_assoc]
    apply splitParameters_append h.signature
    rw [List.mem_append, not_or]
    exact ⟨parenthesis_not_mem_memberText h, hparenthesis⟩
  have hstart : trimStart (m.declaringType.toList.reverse ++
      ' ' :: m.signature.returnText.toList.reverse) =
      m.declaringType.toList.reverse ++ ' ' :: m.signature.returnText.toList.reverse := by
    rw [trimStart_eq_self_iff]
    obtain ⟨c, s, hchars⟩ := List.exists_cons_of_ne_nil htypeNe
    rw [hchars] at htype ⊢
    rintro d ⟨⟩
    exact htype c List.mem_cons_self
  have hblank : ∀ c ∈ (' ' :: m.signature.returnText.toList.reverse).head?, isBlank c = true := by
    rintro c ⟨⟩
    rfl
  obtain ⟨htake, hdropWhile⟩ := cut_at_blank htype hblank
  unfold readMethod
  rw [htext, trim_callee hr, ← htext]
  simp only [hconvention, hparameters, bind, Except.bind, hdrop, splitMember?_memberText h, hstart,
    htake, hdropWhile, List.isEmpty_iff, Bool.or_eq_true, hnameNe, htypeNe, or_self, if_false,
    List.reverse_reverse, hr.trimmed, hresult, String.ofList_toList]
  rfl

theorem getLast?_memberText (h : m.Spellable) :
    (memberText m).getLast? = m.name.toList.getLast? := by
  have hmember : memberText m = (m.signature.returnText.toList ++ ' ' ::
      (m.declaringType.toList ++ [':', ':'])) ++ m.name.toList := by
    simp [memberText]
  rw [hmember, List.getLast?_append_of_ne_nil _ h.name.toList_ne_nil]

theorem trim_memberText (h : m.Spellable) {generics : List Char}
    (hlast : ∀ c ∈ generics.getLast?, isBlank c = false) :
    trim (memberText m ++ generics) = memberText m ++ generics := by
  obtain ⟨hr, -⟩ := isReturnText h.signature
  rw [trim_eq_self_iff]
  constructor
  · rw [memberText, List.append_assoc]
    exact hr.isBlank_head? _
  · intro c hc
    rw [List.getLast?_append, Option.mem_def, Option.or_eq_some_iff] at hc
    rcases hc with hc | ⟨-, hc⟩
    · exact hlast c hc
    · rw [getLast?_memberText h] at hc
      exact h.name.isBlank_eq_false c (List.mem_of_getLast? hc)

theorem toList_fullNameWith (generics : String) (m : MethodRef) :
    (m.fullNameWith generics).toList =
      memberText m ++ (generics.toList ++ m.signature.parameterText.toList) := by
  simp [MethodRef.fullNameWith, memberText]

theorem readMethod_fullName (h : m.Spellable) :
    readMethod (m.signature.conventionText ++ m.fullName).toList = .ok m := by
  have hlast : (memberText m).getLast? ≠ some '>' := by
    rw [getLast?_memberText h]
    exact h.noGenerics
  rw [← m.fullNameWith_empty, String.toList_append, toList_fullNameWith]
  refine readMethod_memberText h List.not_mem_nil ?_
  show dropGenerics (trim (memberText m ++ [])) = memberText m
  rw [trim_memberText h (by rintro c ⟨⟩), List.append_nil, dropGenerics_of_ne hlast]

theorem readMethod_fullNameWith (h : m.Spellable) {arguments : String}
    (hbalanced : BalancedAngles arguments.toList) (hparenthesis : '(' ∉ arguments.toList) :
    readMethod (m.signature.conventionText ++ m.fullNameWith ("<" ++ arguments ++ ">")).toList =
      .ok m := by
  have hgenerics : ("<" ++ arguments ++ ">").toList = '<' :: (arguments.toList ++ ['>']) := by simp
  rw [String.toList_append, toList_fullNameWith, hgenerics]
  refine readMethod_memberText h (by simp [hparenthesis]) ?_
  rw [trim_memberText h, dropGenerics_append hbalanced]
  intro c hc
  rw [← List.cons_append, List.getLast?_concat] at hc
  obtain rfl := Option.some.inj hc
  rfl

/-- **Reading undoes the rendering of callees.**  A signature is read back from its text.  A method is
read back from its convention and its full name, and also when any generic arguments stand behind its
name: these are dropped. -/
theorem read_callee_text :
    (∀ sig : Signature, sig.Spellable → readSignature sig.text.toList = .ok sig) ∧
    ∀ m : MethodRef, m.Spellable →
      readMethod (m.signature.conventionText ++ m.fullName).toList = .ok m ∧
      ∀ arguments : String, BalancedAngles arguments.toList → '(' ∉ arguments.toList →
        readMethod (m.signature.conventionText ++ m.fullNameWith ("<" ++ arguments ++ ">")).toList =
          .ok m :=
  ⟨fun _ h => readSignature_text h,
    fun _ h => ⟨readMethod_fullName h, fun _ hbalanced => readMethod_fullNameWith h hbalanced⟩⟩

/-- An instance method with commas and parentheses inside of its parameters. -/
def addRange : MethodRef where
  declaringType := "Bag::Of:"
  name := "Add:Range"
  signature := {
    convention := { hasThis := true, explicitThis := true }
    parameters := ["class Pair`2<int32, string[,]>", "method void *(int32, int32)"]
    returnType := some "class List`1<!0> modopt Bag::Tag" }

theorem addRange_read :
    addRange.Spellable ∧ readSignature addRange.signature.text.toList = .ok addRange.signature ∧
      readMethod (addRange.signature.conventionText ++ addRange.fullName).toList = .ok addRange ∧
      readMethod (addRange.signature.conventionText ++
        addRange.fullNameWith ("<" ++ "A::B<int32>, C<D<!0>>)" ++ ">")).toList = .ok addRange := by
  have hspellable : addRange.Spellable := by decide +kernel
  obtain ⟨hfull, hgeneric⟩ := read_callee_text.2 addRange hspellable
  exact ⟨hspellable, read_callee_text.1 _ hspellable.signature, hfull,
    hgeneric "A::B<int32>, C<D<!0>>)" (by decide +kernel) (by decide)⟩

end Listing

end PushGuard
