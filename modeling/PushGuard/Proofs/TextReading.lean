import Mathlib.Data.List.DropRight
import PushGuard.Text.Blank
import PushGuard.Text.Cut
import PushGuard.Text.Digits

/-!
# Reading text back

What the cuts and the number readers make of text that was put together from known parts: numerals
are read as the numbers they show (`digits?_toDigits`, `digits?_hex`), words and lines are found
again (`words_intercalate`, `lines_intercalate`), and trimming stops at the first and the last
character that is not blank (`trim_eq_self_iff`).
-/

namespace PushGuard.Text

/-! ## Numerals -/

theorem digitValue?_digitChar : ∀ d < 16, digitValue? d.digitChar = some d := by
  decide

theorem digitsFrom?_append (base high : Nat) (s t : List Char) :
    digitsFrom? base high (s ++ t) = (digitsFrom? base high s).bind (digitsFrom? base · t) := by
  induction s generalizing high with
  | nil => rfl
  | cons c s ih =>
    rw [List.cons_append, digitsFrom?, digitsFrom?]
    cases digitValue? c with
    | none => rfl
    | some d =>
      by_cases hd : d < base
      · simp only [if_pos hd, ih]
      · simp only [if_neg hd, Option.bind_none]

theorem digitsFrom?_digitChar {base d : Nat} (hbase : base ≤ 16) (hd : d < base) (high : Nat) :
    digitsFrom? base high [d.digitChar] = some (high * base + d) := by
  rw [digitsFrom?, digitValue?_digitChar d (Nat.lt_of_lt_of_le hd hbase)]
  simp only [if_pos hd, digitsFrom?]

/-- The last digit is read after the number that the others show. -/
theorem digitsFrom?_toDigits {base : Nat} (hone : 1 < base) (hbase : base ≤ 16) (n : Nat) :
    digitsFrom? base 0 (Nat.toDigits base n) = some n := by
  induction n using Nat.strongRecOn with
  | ind n ih =>
    rcases Nat.lt_or_ge n base with hlt | hge
    · rw [Nat.toDigits_of_lt_base hlt, digitsFrom?_digitChar hbase hlt, Nat.zero_mul, Nat.zero_add]
    · have hdiv : n / base < n := Nat.div_lt_self (by omega) hone
      have hmod : n % base < base := Nat.mod_lt _ (by omega)
      rw [Nat.toDigits_of_base_le hone hge, digitsFrom?_append, ih _ hdiv, Option.bind_some,
        digitsFrom?_digitChar hbase hmod, Nat.div_add_mod']

theorem digits?_of_ne_nil {base : Nat} {s : List Char} (h : s ≠ []) :
    digits? base s = digitsFrom? base 0 s := by
  cases s with
  | nil => exact absurd rfl h
  | cons c s => rfl

theorem digits?_toDigits {base : Nat} (hone : 1 < base) (hbase : base ≤ 16) (n : Nat) :
    digits? base (Nat.toDigits base n) = some n := by
  rw [digits?_of_ne_nil Nat.toDigits_ne_nil, digitsFrom?_toDigits hone hbase]

/-- Zeros in front do not count. -/
theorem digitsFrom?_zeros (base k : Nat) (hbase : 0 < base) (s : List Char) :
    digitsFrom? base 0 (List.replicate k '0' ++ s) = digitsFrom? base 0 s := by
  induction k with
  | zero => rfl
  | succ k ih =>
    rw [List.replicate_succ, List.cons_append, digitsFrom?,
      show digitValue? '0' = some 0 from rfl]
    simp only [if_pos hbase, Nat.zero_mul, Nat.add_zero, ih]

theorem digits?_hex (width n : Nat) : digits? 16 (hex width n).toList = some n := by
  unfold hex
  rw [String.toList_ofList, digits?_of_ne_nil (by simp), digitsFrom?_zeros 16 _ (by decide),
    digitsFrom?_toDigits (by decide) (by decide)]

theorem hex_injective (width : Nat) : Function.Injective (hex width) := by
  intro m n h
  have hdigits := congrArg (fun s : String => digits? 16 s.toList) h
  simp only [digits?_hex] at hdigits
  exact Option.some.inj hdigits

theorem exists_digitChar_of_mem_toDigits {base n : Nat} {c : Char} (hone : 1 < base)
    (h : c ∈ Nat.toDigits base n) : ∃ d < base, c = d.digitChar := by
  induction n using Nat.strongRecOn with
  | ind n ih =>
    rcases Nat.lt_or_ge n base with hlt | hge
    · rw [Nat.toDigits_of_lt_base hlt] at h
      exact ⟨n, hlt, List.mem_singleton.1 h⟩
    · rw [Nat.toDigits_of_base_le hone hge, List.mem_append] at h
      rcases h with h | h
      · exact ih _ (Nat.div_lt_self (by omega) hone) h
      · exact ⟨n % base, Nat.mod_lt _ (by omega), List.mem_singleton.1 h⟩

/-- What holds of the ten digits holds of every character of a numeral. -/
theorem forall_mem_toDigits {p : Char → Prop} (hp : ∀ d < 10, p (Nat.digitChar d)) (n : Nat) :
    ∀ c ∈ Nat.toDigits 10 n, p c := by
  intro c hc
  obtain ⟨d, hd, rfl⟩ := exists_digitChar_of_mem_toDigits (by decide) hc
  exact hp d hd

theorem forall_mem_hex {p : Char → Prop} (hp : ∀ d < 16, p (Nat.digitChar d)) (width n : Nat) :
    ∀ c ∈ (hex width n).toList, p c := by
  intro c hc
  unfold hex at hc
  rw [String.toList_ofList, List.mem_append] at hc
  rcases hc with hc | hc
  · rw [(List.mem_replicate.1 hc).2]
    exact hp 0 (by decide)
  · obtain ⟨d, hd, rfl⟩ := exists_digitChar_of_mem_toDigits (by decide) hc
    exact hp d hd

/-! ## Blanks -/

theorem trimStart_eq_self_iff {s : List Char} :
    trimStart s = s ↔ ∀ c ∈ s.head?, isBlank c = false := by
  rw [trimStart, List.dropWhile_eq_self_iff]
  cases s <;> simp

theorem trimEnd_eq_rdropWhile (s : List Char) : trimEnd s = s.rdropWhile isBlank := rfl

theorem trimEnd_eq_self_iff {s : List Char} :
    trimEnd s = s ↔ ∀ c ∈ s.getLast?, isBlank c = false := by
  rw [trimEnd_eq_rdropWhile, List.rdropWhile_eq_self_iff]
  constructor
  · intro h c hc
    obtain ⟨hne, rfl⟩ := List.mem_getLast?_eq_getLast hc
    exact Bool.eq_false_iff.2 (h hne)
  · intro h hne
    exact Bool.eq_false_iff.1 (h _ (List.getLast?_eq_some_getLast hne))

theorem trimEnd_isPrefix (s : List Char) : trimEnd s <+: s := List.rdropWhile_prefix isBlank s

/-- Trimmed is a text with no blank at either end. -/
theorem trim_eq_self_iff {s : List Char} :
    trim s = s ↔ (∀ c ∈ s.head?, isBlank c = false) ∧ ∀ c ∈ s.getLast?, isBlank c = false := by
  rw [← trimStart_eq_self_iff, ← trimEnd_eq_self_iff]
  constructor
  · intro h
    have hend := (trimEnd_isPrefix (trimStart s)).length_le
    have hstart : trimStart s = s := by
      apply (List.dropWhile_suffix isBlank).eq_of_length
      apply Nat.le_antisymm (List.dropWhile_suffix isBlank).length_le
      rw [trim] at h
      rwa [h] at hend
    rw [trim, hstart] at h
    exact ⟨hstart, h⟩
  · rintro ⟨hstart, hend⟩
    rw [trim, hstart, hend]

theorem trim_cons_of_isBlank {c : Char} (h : isBlank c = true) (s : List Char) :
    trim (c :: s) = trim s := by
  unfold trim trimStart
  rw [List.dropWhile_cons_of_pos h]

/-- The end of a trimmed text is trimmed if it begins with no blank. -/
theorem trim_eq_self_of_append {s t : List Char} (h : trim (s ++ t) = s ++ t)
    (hhead : ∀ c ∈ t.head?, isBlank c = false) : trim t = t := by
  rw [trim_eq_self_iff] at h ⊢
  refine ⟨hhead, fun c hc => h.2 c ?_⟩
  rw [List.getLast?_append, hc, Option.some_or]
  exact rfl

theorem trim_eq_self_of_forall {s : List Char} (h : ∀ c ∈ s, isBlank c = false) : trim s = s :=
  trim_eq_self_iff.2
    ⟨fun c hc => h c (List.mem_of_head? hc), fun c hc => h c (List.mem_of_getLast? hc)⟩

/-- Blanks behind a text are trimmed off. -/
theorem trim_append_blanks (s : List Char) {blanks : List Char}
    (hblanks : ∀ c ∈ blanks, isBlank c = true) : trim (s ++ blanks) = trim s := by
  unfold trim trimStart
  rw [List.dropWhile_append]
  split
  · next hempty =>
    -- all of the text is blank
    rw [List.isEmpty_iff.1 hempty, List.dropWhile_eq_nil_iff.2 hblanks]
  · unfold trimEnd
    rw [List.reverse_append,
      List.dropWhile_append_of_pos fun c hc => hblanks c (List.mem_reverse.1 hc)]

/-- A text between two signs is trimmed, whatever stands between them. -/
theorem trim_enclosed {a b : Char} (ha : isBlank a = false) (hb : isBlank b = false)
    (s : List Char) : trim ([a] ++ (s ++ [b])) = [a] ++ (s ++ [b]) := by
  rw [trim_eq_self_iff]
  refine ⟨?_, ?_⟩
  · intro c hc
    obtain rfl := Option.some.inj hc
    exact ha
  · intro c hc
    rw [← List.append_assoc, List.getLast?_concat] at hc
    obtain rfl := Option.some.inj hc
    exact hb

theorem isBlank_of_mem_head?_dropWhile {s : List Char} {c : Char}
    (h : c ∈ (s.dropWhile isBlank).head?) : isBlank c = false := by
  have hnot := List.head?_dropWhile_not isBlank s
  rw [h] at hnot
  exact hnot

/-- Trimming keeps what is not blank. -/
theorem trim_ne_nil {s : List Char} {c : Char} (hc : c ∈ s) (hblank : isBlank c = false) :
    trim s ≠ [] := by
  intro h
  rw [trim, trimEnd_eq_rdropWhile, List.rdropWhile_eq_nil_iff] at h
  have hnil : trimStart s = [] := by
    cases hstart : trimStart s with
    | nil => rfl
    | cons d rest =>
      have hd : isBlank d = false := isBlank_of_mem_head?_dropWhile (s := s) (by
        rw [← trimStart, hstart]
        exact rfl)
      have hd' := h d (hstart ▸ List.mem_cons_self)
      rw [hd] at hd'
      cases hd'
  rw [trimStart, List.dropWhile_eq_nil_iff] at hnil
  have hc' := hnil c hc
  rw [hblank] at hc'
  cases hc'

/-! ## Beginnings and ends -/

theorem after?_append (start s : List Char) : after? start (start ++ s) = some s := by
  induction start with
  | nil => rfl
  | cons a start ih => rw [List.cons_append, after?, if_pos rfl, ih]

theorem before?_append (s : List Char) (c : Char) : before? c (s ++ [c]) = some s := by
  rw [before?, List.getLast?_concat, if_pos rfl, List.dropLast_concat]

theorem eq_append_of_after? {start s rest : List Char} (h : after? start s = some rest) :
    s = start ++ rest := by
  induction start generalizing s with
  | nil => exact Option.some.inj h
  | cons a start ih =>
    cases s with
    | nil => cases h
    | cons c s =>
      rw [after?] at h
      split at h
      · next hac =>
        rw [hac, ih h]
        rfl
      · cases h

/-- A cut at the first place of a character. -/
theorem cut_at_first {c : Char} {front : List Char} (h : c ∉ front) (rest : List Char) :
    (front ++ c :: rest).takeWhile (· != c) = front ∧
      (front ++ c :: rest).dropWhile (· != c) = c :: rest := by
  have hfront : ∀ d ∈ front, (d != c) = true := by
    intro d hd
    exact bne_iff_ne.2 fun heq => h (heq ▸ hd)
  have hc : ¬ (c != c) = true := by simp
  constructor
  · rw [List.takeWhile_append_of_pos hfront, List.takeWhile_cons_of_neg (p := (· != c)) hc,
      List.append_nil]
  · rw [List.dropWhile_append_of_pos hfront, List.dropWhile_cons_of_neg (p := (· != c)) hc]

/-- A cut behind the first word. -/
theorem cut_at_blank {word rest : List Char} (hword : ∀ c ∈ word, isBlank c = false)
    (hrest : ∀ c ∈ rest.head?, isBlank c = true) :
    (word ++ rest).takeWhile (fun c => !isBlank c) = word ∧
      (word ++ rest).dropWhile (fun c => !isBlank c) = rest := by
  have hkept : ∀ c ∈ word, (!isBlank c) = true := by
    intro c hc
    rw [hword c hc, Bool.not_false]
  rw [List.takeWhile_append_of_pos hkept, List.dropWhile_append_of_pos hkept]
  cases rest with
  | nil => exact ⟨List.append_nil _, rfl⟩
  | cons c rest =>
    have hc : ¬ (!isBlank c) = true := by simp [hrest c rfl]
    rw [List.takeWhile_cons_of_neg (p := fun c => !isBlank c) hc,
      List.dropWhile_cons_of_neg (p := fun c => !isBlank c) hc]
    exact ⟨List.append_nil _, rfl⟩

/-! ## Words and lines -/

theorem addToWords_apart {c : Char} (h : ¬ isBlank c = true) (rest : List (List Char)) :
    addToWords c (false, rest) = (true, [c] :: rest) :=
  if_neg h

theorem addToWords_joining {c : Char} (h : ¬ isBlank c = true) (word : List Char)
    (rest : List (List Char)) : addToWords c (true, word :: rest) = (true, (c :: word) :: rest) :=
  if_neg h

theorem foldr_addToWords {word : List Char} (hne : word ≠ [])
    (hword : ∀ c ∈ word, isBlank c = false) (rest : List (List Char)) :
    word.foldr addToWords (false, rest) = (true, word :: rest) := by
  induction word with
  | nil => exact absurd rfl hne
  | cons c word ih =>
    have hc : ¬ isBlank c = true := by
      rw [hword c List.mem_cons_self]
      exact Bool.false_ne_true
    rw [List.foldr_cons]
    cases word with
    | nil => exact addToWords_apart hc rest
    | cons d word =>
      rw [ih (List.cons_ne_nil _ _) fun c hc => hword c (List.mem_cons_of_mem _ hc)]
      exact addToWords_joining hc _ rest

theorem words_of_forall {word : List Char} (hne : word ≠ [])
    (hword : ∀ c ∈ word, isBlank c = false) : words word = [word] := by
  rw [words, foldr_addToWords hne hword]

theorem words_append {word : List Char} (hne : word ≠ [])
    (hword : ∀ c ∈ word, isBlank c = false) (rest : List Char) :
    words (word ++ ' ' :: rest) = word :: words rest := by
  have hblank : List.foldr addToWords (false, []) (' ' :: rest) = (false, words rest) := rfl
  rw [words, List.foldr_append, hblank, foldr_addToWords hne hword]

theorem mem_intercalate {separator : String} {ws : List String} {c : Char}
    (h : c ∈ (separator.intercalate ws).toList) :
    c ∈ separator.toList ∨ ∃ word ∈ ws, c ∈ word.toList := by
  induction ws with
  | nil => cases h
  | cons word ws ih =>
    cases ws with
    | nil =>
      rw [String.intercalate_singleton] at h
      exact .inr ⟨word, List.mem_cons_self, h⟩
    | cons next ws =>
      rw [String.intercalate_cons_cons, String.toList_append, String.toList_append,
        List.mem_append, List.mem_append] at h
      rcases h with (h | h) | h
      · exact .inr ⟨word, List.mem_cons_self, h⟩
      · exact .inl h
      · rcases ih h with h | ⟨w, hw, h⟩
        · exact .inl h
        · exact .inr ⟨w, List.mem_cons_of_mem _ hw, h⟩

theorem words_intercalate {ws : List String} (hne : ∀ word ∈ ws, word ≠ "")
    (hword : ∀ word ∈ ws, ∀ c ∈ word.toList, isBlank c = false) :
    words (String.intercalate " " ws).toList = ws.map String.toList := by
  induction ws with
  | nil => rfl
  | cons word ws ih =>
    have hfirst : word.toList ≠ [] := fun h =>
      hne word List.mem_cons_self (String.toList_eq_nil_iff.1 h)
    have hblank := hword word List.mem_cons_self
    cases ws with
    | nil =>
      rw [String.intercalate_singleton, words_of_forall hfirst hblank]
      rfl
    | cons next ws =>
      have htail := ih (fun w hw => hne w (List.mem_cons_of_mem _ hw))
        fun w hw => hword w (List.mem_cons_of_mem _ hw)
      rw [String.intercalate_cons_cons, String.toList_append, String.toList_append,
        List.append_assoc]
      exact (words_append hfirst hblank _).trans (congrArg (word.toList :: ·) htail)

theorem map_ofList_toList (ws : List String) : (ws.map String.toList).map String.ofList = ws := by
  have hid : String.ofList ∘ String.toList = id := funext fun _ => String.ofList_toList
  rw [List.map_map, hid, List.map_id]

theorem lines_append {line : List Char} (hline : '\n' ∉ line) (rest : List Char) :
    lines (line ++ '\n' :: rest) = line :: lines rest := by
  induction line with
  | nil => rfl
  | cons c line ih =>
    have hc : c ≠ '\n' := fun h => hline (h ▸ List.mem_cons_self)
    have htail := ih fun h => hline (List.mem_cons_of_mem _ h)
    rw [lines] at htail ⊢
    rw [List.cons_append, List.foldr_cons, htail, addToLines, if_neg hc]

theorem lines_of_not_mem {line : List Char} (hline : '\n' ∉ line) (hne : line ≠ []) :
    lines line = [line] := by
  induction line with
  | nil => exact absurd rfl hne
  | cons c line ih =>
    have hc : c ≠ '\n' := fun h => hline (h ▸ List.mem_cons_self)
    cases line with
    | nil => rw [lines, List.foldr_cons, List.foldr_nil, addToLines, if_neg hc]
    | cons d line =>
      have htail := ih (fun h => hline (List.mem_cons_of_mem _ h)) (List.cons_ne_nil _ _)
      rw [lines] at htail ⊢
      rw [List.foldr_cons, htail, addToLines, if_neg hc]

/-- The lines of a text are found again, whether or not a line feed ends the last of them. -/
theorem lines_intercalate {ls : List (List Char)} (hls : ∀ line ∈ ls, '\n' ∉ line)
    (hne : ∀ line ∈ ls, line ≠ []) {ending : List Char} (hending : ending = [] ∨ ending = ['\n'])
    (hsome : ls ≠ []) : lines (['\n'].intercalate ls ++ ending) = ls := by
  induction ls with
  | nil => exact absurd rfl hsome
  | cons line ls ih =>
    have hline := hls line List.mem_cons_self
    cases ls with
    | nil =>
      rw [List.intercalate_singleton]
      rcases hending with rfl | rfl
      · rw [List.append_nil]
        exact lines_of_not_mem hline (hne line List.mem_cons_self)
      · exact lines_append hline []
    | cons next ls =>
      rw [List.intercalate_cons_cons, List.append_assoc, List.append_assoc, List.singleton_append,
        lines_append hline, ih (fun l hl => hls l (List.mem_cons_of_mem _ hl))
          (fun l hl => hne l (List.mem_cons_of_mem _ hl)) (by simp)]

theorem addToLines_append {c : Char} {ls : List (List Char)} (h : c = '\n' ∨ ls ≠ [])
    (rest : List (List Char)) : addToLines c (ls ++ rest) = addToLines c ls ++ rest := by
  unfold addToLines
  by_cases hc : c = '\n'
  · rw [if_pos hc, if_pos hc, List.cons_append]
  · rw [if_neg hc, if_neg hc]
    cases ls with
    | nil => exact absurd rfl (h.resolve_left hc)
    | cons line ls => rfl

theorem lines_ne_nil {s : List Char} (hne : s ≠ []) : lines s ≠ [] := by
  cases s with
  | nil => exact absurd rfl hne
  | cons c s =>
    show addToLines c (lines s) ≠ []
    unfold addToLines
    split
    · exact List.cons_ne_nil _ _
    · split <;> exact List.cons_ne_nil _ _

/-- The last line of the first text has ended, so the second text begins with a line of its own. -/
theorem lines_append_of_ended {s : List Char} (hs : s.getLast?.all (· == '\n') = true)
    (t : List Char) : lines (s ++ t) = lines s ++ lines t := by
  induction s with
  | nil => rfl
  | cons c s ih =>
    have hadd : lines s ++ lines t = lines (s ++ t) ∧ (c = '\n' ∨ lines s ≠ []) := by
      cases s with
      | nil => exact ⟨rfl, Or.inl (by simpa using hs)⟩
      | cons d s =>
        rw [List.getLast?_cons_cons] at hs
        exact ⟨(ih hs).symm, Or.inr (lines_ne_nil (List.cons_ne_nil d s))⟩
    show addToLines c (lines (s ++ t)) = addToLines c (lines s) ++ lines t
    rw [← hadd.1, addToLines_append hadd.2]

/-- A line feed behind a line that has not ended adds no line. -/
theorem lines_concat_lineFeed {s : List Char} (hs : s.getLast?.all (· == '\n') = false) :
    lines (s ++ ['\n']) = lines s := by
  induction s with
  | nil => cases hs
  | cons c s ih =>
    cases s with
    | nil =>
      have hc : c ≠ '\n' := by simpa using hs
      show addToLines c [[]] = addToLines c []
      rw [addToLines, addToLines, if_neg hc, if_neg hc]
    | cons d s =>
      rw [List.getLast?_cons_cons] at hs
      exact congrArg (addToLines c) (ih hs)

end PushGuard.Text
