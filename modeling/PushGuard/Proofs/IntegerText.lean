import Mathlib.Algebra.Order.Ring.Int
import PushGuard.Listing
import PushGuard.Proofs.TextReading

/-!
# The text of integers

A number without a sign is written in decimal digits, or in hexadecimal ones behind `0x`, and an integer
is such a number with at most one minus sign in front (`Denotes`).  What the reader takes is more than
that: behind the minus sign, or behind `0x`, the digits may have a sign again (`Number`).  As long as none
stands there (`straySign`), the reader takes just the integers of which the digits fit into 64 bits
(`integer?_of_denotes`, `denotes_of_integer?`).  The digits are read before the minus sign is applied, so
the least integer of 64 bits is not among them.
-/

namespace PushGuard

namespace Text

/-! ## Digits -/

/-- The character is a digit with this value; letters may have either case. -/
def IsDigit (base : Nat) (c : Char) (d : Nat) : Prop :=
  d < base ∧ (c = d.digitChar ∨ c = d.digitChar.toUpper)

/-- One or more digits, and the number that they show. -/
inductive Numeral (base : Nat) : List Char → Nat → Prop
  | digit {c : Char} {d : Nat} (hc : IsDigit base c d) : Numeral base [c] d
  | concat {s : List Char} {n : Nat} {c : Char} {d : Nat} (hs : Numeral base s n)
      (hc : IsDigit base c d) : Numeral base (s ++ [c]) (n * base + d)

theorem digitValue?_eq_some_iff {c : Char} {d : Nat} (hd : d < 16) :
    digitValue? c = some d ↔ c = d.digitChar ∨ c = d.digitChar.toUpper := by
  have hupper : ∀ d < 16, digitValue? d.digitChar.toUpper = some d := by decide
  have hdecimal : ∀ d < 10, Char.ofNat (48 + d) = d.digitChar := by decide
  have hsmall : ∀ d < 16, 10 ≤ d → Char.ofNat (87 + d) = d.digitChar := by decide
  have hlarge : ∀ d < 16, 10 ≤ d → Char.ofNat (55 + d) = d.digitChar.toUpper := by decide
  constructor
  · intro h
    have hchar : ∀ n, c.toNat = n → c = Char.ofNat n := by
      rintro n rfl
      exact (Char.ofNat_toNat c).symm
    unfold digitValue? at h
    simp only [Char.le_def, UInt32.le_iff_toNat_le] at h
    split at h
    · next hrange =>
      change 48 ≤ c.toNat ∧ c.toNat ≤ 57 at hrange
      have hvalue : c.toNat - 48 = d := Option.some.inj h
      exact Or.inl ((hchar (48 + d) (by omega)).trans (hdecimal d (by omega)))
    split at h
    · next hrange =>
      change 97 ≤ c.toNat ∧ c.toNat ≤ 122 at hrange
      have hvalue : c.toNat - 97 + 10 = d := Option.some.inj h
      exact Or.inl ((hchar (87 + d) (by omega)).trans (hsmall d hd (by omega)))
    split at h
    · next hrange =>
      change 65 ≤ c.toNat ∧ c.toNat ≤ 90 at hrange
      have hvalue : c.toNat - 65 + 10 = d := Option.some.inj h
      exact Or.inr ((hchar (55 + d) (by omega)).trans (hlarge d hd (by omega)))
    · cases h
  · rintro (rfl | rfl)
    · exact digitValue?_digitChar d hd
    · exact hupper d hd

theorem digitsFrom?_singleton_eq_some_iff {base : Nat} (hbase : base ≤ 16) (high : Nat) (c : Char)
    (n : Nat) :
    digitsFrom? base high [c] = some n ↔ ∃ d, IsDigit base c d ∧ n = high * base + d := by
  unfold digitsFrom?
  constructor
  · intro h
    cases hc : digitValue? c with
    | none => simp only [hc] at h; cases h
    | some d =>
      simp only [hc] at h
      split at h
      · next hd =>
        exact ⟨d, ⟨hd, (digitValue?_eq_some_iff (by omega)).1 hc⟩, (Option.some.inj h).symm⟩
      · cases h
  · rintro ⟨d, ⟨hd, hc⟩, rfl⟩
    simp only [(digitValue?_eq_some_iff (Nat.lt_of_lt_of_le hd hbase)).2 hc, if_pos hd, digitsFrom?]

/-- The reader of digits takes the numerals. -/
theorem digits?_eq_some_iff {base : Nat} (hbase : base ≤ 16) {s : List Char} {n : Nat} :
    digits? base s = some n ↔ Numeral base s n := by
  constructor
  · intro h
    -- from the last digit on, as numerals are made, though the reader goes the other way
    induction s using List.reverseRecOn generalizing n with
    | nil => cases h
    | append_singleton s c ih =>
      rw [digits?_of_ne_nil (by simp), digitsFrom?_append, Option.bind_eq_some_iff] at h
      obtain ⟨m, hm, hc⟩ := h
      obtain ⟨d, hd, rfl⟩ := (digitsFrom?_singleton_eq_some_iff hbase m c n).1 hc
      by_cases hs : s = []
      · subst hs
        obtain rfl : 0 = m := Option.some.inj hm
        rw [Nat.zero_mul, Nat.zero_add]
        exact .digit hd
      · rw [← digits?_of_ne_nil hs] at hm
        exact .concat (ih hm) hd
  · intro h
    induction h with
    | @digit c d hc =>
      exact (digitsFrom?_singleton_eq_some_iff hbase 0 c d).2 ⟨d, hc, by omega⟩
    | @concat s n c d _ hc ih =>
      have hs : s ≠ [] := by
        rintro rfl
        cases ih
      rw [digits?_of_ne_nil hs] at ih
      rw [digits?_of_ne_nil (by simp), digitsFrom?_append, ih]
      exact (digitsFrom?_singleton_eq_some_iff hbase n c _).2 ⟨d, hc, rfl⟩

/-- What holds of the digits holds of every character of a numeral. -/
theorem Numeral.forall_mem {base : Nat} {s : List Char} {n : Nat} (h : Numeral base s n)
    (p : Char → Prop) (hp : ∀ d < base, p d.digitChar ∧ p d.digitChar.toUpper) : ∀ c ∈ s, p c := by
  have hdigit : ∀ c d, IsDigit base c d → p c := by
    rintro c d ⟨hd, rfl | rfl⟩
    · exact (hp d hd).1
    · exact (hp d hd).2
  induction h with
  | digit hc => exact List.forall_mem_singleton.2 (hdigit _ _ hc)
  | concat _ hc ih => exact List.forall_mem_append.2 ⟨ih, List.forall_mem_singleton.2 (hdigit _ _ hc)⟩

theorem Numeral.exists_cons {base : Nat} {s : List Char} {n : Nat} (h : Numeral base s n) :
    ∃ c rest, s = c :: rest := by
  cases h with
  | @digit c d hc => exact ⟨c, [], rfl⟩
  | @concat s n c d _ _ => exact List.exists_cons_of_ne_nil (by simp)

theorem numeral_toDigits {base : Nat} (hone : 1 < base) (hbase : base ≤ 16) (n : Nat) :
    Numeral base (Nat.toDigits base n) n :=
  (digits?_eq_some_iff hbase).1 (digits?_toDigits hone hbase n)

/-- Digits behind at most one sign. -/
inductive Signed (base : Nat) : List Char → Int → Prop
  | plain {s : List Char} {n : Nat} (hs : Numeral base s n) : Signed base s n
  | plus {s : List Char} {n : Nat} (hs : Numeral base s n) : Signed base ('+' :: s) n
  | minus {s : List Char} {n : Nat} (hs : Numeral base s n) : Signed base ('-' :: s) (-n)

/-- A numeral does not begin with a sign. -/
theorem Numeral.head_ne {base : Nat} (hbase : base ≤ 16) {c : Char} {s : List Char} {n : Nat}
    (h : Numeral base (c :: s) n) : c ≠ '+' ∧ c ≠ '-' := by
  have hdigits : ∀ d < 16, (d.digitChar ≠ '+' ∧ d.digitChar ≠ '-') ∧
      d.digitChar.toUpper ≠ '+' ∧ d.digitChar.toUpper ≠ '-' := by decide
  exact h.forall_mem (fun c => c ≠ '+' ∧ c ≠ '-') (fun d hd => hdigits d (by omega)) c
    List.mem_cons_self

theorem signedDigits?_eq_some_iff {base : Nat} (hbase : base ≤ 16) {s : List Char} {m : Int} :
    signedDigits? base s = some m ↔ Signed base s m := by
  constructor
  · intro h
    unfold signedDigits? at h
    split at h
    · next s =>
      cases hn : digits? base s with
      | none => rw [hn] at h; cases h
      | some n =>
        rw [hn] at h
        obtain rfl : -(n : Int) = m := Option.some.inj h
        exact .minus ((digits?_eq_some_iff hbase).1 hn)
    · next s =>
      cases hn : digits? base s with
      | none => rw [hn] at h; cases h
      | some n =>
        rw [hn] at h
        obtain rfl : (n : Int) = m := Option.some.inj h
        exact .plus ((digits?_eq_some_iff hbase).1 hn)
    · cases hn : digits? base s with
      | none => rw [hn] at h; cases h
      | some n =>
        rw [hn] at h
        obtain rfl : (n : Int) = m := Option.some.inj h
        exact .plain ((digits?_eq_some_iff hbase).1 hn)
  · rintro (⟨hs⟩ | ⟨hs⟩ | ⟨hs⟩)
    · obtain ⟨c, rest, rfl⟩ := hs.exists_cons
      obtain ⟨hplus, hminus⟩ := hs.head_ne hbase
      rw [signedDigits?.eq_3 base _ (by rintro _ ⟨⟩; exact hminus rfl)
        (by rintro _ ⟨⟩; exact hplus rfl), (digits?_eq_some_iff hbase).2 hs]
      rfl
    · rw [signedDigits?, (digits?_eq_some_iff hbase).2 hs]
      rfl
    · rw [signedDigits?, (digits?_eq_some_iff hbase).2 hs]
      rfl

end Text

namespace Listing

open Text

/-! ## Integers -/

/-- A number without a sign. -/
inductive Unsigned : List Char → Nat → Prop
  | decimal {s : List Char} {n : Nat} (hs : Numeral 10 s n) : Unsigned s n
  | hexadecimal {s : List Char} {n : Nat} (hs : Numeral 16 s n) : Unsigned ('0' :: 'x' :: s) n

/-- The text is that of an integer: a number without a sign, or one behind a minus sign. -/
inductive Denotes : List Char → Int → Prop
  | plain {s : List Char} {n : Nat} (hs : Unsigned s n) : Denotes s n
  | minus {s : List Char} {n : Nat} (hs : Unsigned s n) : Denotes ('-' :: s) (-n)

/-- What is read behind a minus sign or without one: the digits may have a sign themselves. -/
inductive Number : List Char → Int → Prop
  | decimal {s : List Char} {m : Int} (hs : Signed 10 s m) : Number s m
  | hexadecimal {s : List Char} {m : Int} (hs : Signed 16 s m) : Number ('0' :: 'x' :: s) m

/-- The digits have a sign. -/
def signedInside (digits : List Char) : Bool :=
  ((after? "0x".toList digits).getD digits).head?.any fun c => c == '+' || c == '-'

/-- There is a sign that no integer has: a plus sign, or any sign behind a minus sign or `0x`. -/
def straySign (text : List Char) : Bool := signedInside ((after? ['-'] text).getD text)

/-- The number behind the minus sign has no opposite in 64 bits. -/
def Overflows (text : List Char) : Prop :=
  ∃ digits m, text = '-' :: digits ∧ magnitude? digits = some m ∧ (-m).toInt ≠ -m.toInt

/-! ## Numbers of 64 bits -/

/-- The letter of `0x` is no decimal digit. -/
theorem after?_of_signed {s : List Char} {m : Int} (h : Signed 10 s m) :
    after? "0x".toList s = none := by
  have hdigits : ∀ d < 10, d.digitChar ≠ 'x' ∧ d.digitChar.toUpper ≠ 'x' := by decide
  rcases h with ⟨hs⟩ | ⟨hs⟩ | ⟨hs⟩
  · have hx := hs.forall_mem (· ≠ 'x') hdigits
    cases hafter : after? "0x".toList s with
    | none => rfl
    | some rest =>
      rw [eq_append_of_after? hafter] at hx
      exact absurd rfl (hx 'x' (List.mem_cons_of_mem _ List.mem_cons_self))
  · rfl
  · rfl

theorem int64?_eq_some_iff (n : Int) (m : Int64) : int64? n = some m ↔ n = m.toInt := by
  unfold int64?
  constructor
  · intro h
    split at h
    · next hn =>
      obtain rfl := Option.some.inj h
      rw [Int64.toInt_ofInt_of_le (by omega) (by omega)]
    · cases h
  · rintro rfl
    have hlow := m.le_toInt
    have hhigh := m.toInt_lt
    rw [if_pos (by omega), Int64.ofInt_toInt]

theorem signedDigits?_bind_int64?_iff {base : Nat} (hbase : base ≤ 16) (s : List Char) (m : Int64) :
    (signedDigits? base s).bind int64? = some m ↔ Signed base s m.toInt := by
  simp only [Option.bind_eq_some_iff, int64?_eq_some_iff, exists_eq_right,
    signedDigits?_eq_some_iff hbase]

theorem magnitude?_eq_some_iff (digits : List Char) (m : Int64) :
    magnitude? digits = some m ↔ Number digits m.toInt := by
  unfold magnitude?
  cases hafter : after? "0x".toList digits with
  | some rest =>
    obtain rfl : digits = '0' :: 'x' :: rest := eq_append_of_after? hafter
    simp only [signedDigits?_bind_int64?_iff (Nat.le_refl 16)]
    constructor
    · exact .hexadecimal
    · rintro (hs | hs)
      · rw [after?_of_signed hs] at hafter
        cases hafter
      · exact hs
  | none =>
    simp only [signedDigits?_bind_int64?_iff (show 10 ≤ 16 by decide)]
    constructor
    · exact .decimal
    · rintro (hs | hs)
      · exact hs
      · cases hafter

/-! ## Stray signs -/

/-- Without a sign the digits show a number. -/
theorem Number.exists_unsigned {digits : List Char} {m : Int} (h : Number digits m)
    (hsign : signedInside digits = false) : ∃ n : Nat, Unsigned digits n ∧ m = n := by
  rcases h with hs | @⟨s, _, hs⟩
  · unfold signedInside at hsign
    rw [after?_of_signed hs] at hsign
    rcases hs with ⟨hs⟩ | ⟨hs⟩ | ⟨hs⟩
    · exact ⟨_, .decimal hs, rfl⟩
    · cases hsign
    · cases hsign
  · have hafter : after? "0x".toList ('0' :: 'x' :: s) = some s := after?_append "0x".toList s
    unfold signedInside at hsign
    rw [hafter] at hsign
    rcases hs with ⟨hs⟩ | ⟨hs⟩ | ⟨hs⟩
    · exact ⟨_, .hexadecimal hs, rfl⟩
    · cases hsign
    · cases hsign

theorem Unsigned.number {digits : List Char} {n : Nat} (h : Unsigned digits n) : Number digits n := by
  rcases h with hs | hs
  · exact .decimal (.plain hs)
  · exact .hexadecimal (.plain hs)

theorem Unsigned.signedInside {digits : List Char} {n : Nat} (h : Unsigned digits n) :
    signedInside digits = false := by
  have hnumeral : ∀ {base s}, base ≤ 16 → Numeral base s n →
      (s.head?.any fun c => c == '+' || c == '-') = false := by
    intro base s hbase hs
    obtain ⟨c, rest, rfl⟩ := hs.exists_cons
    obtain ⟨hplus, hminus⟩ := hs.head_ne hbase
    simp [hplus, hminus]
  unfold Listing.signedInside
  rcases h with hs | @⟨s, _, hs⟩
  · rw [after?_of_signed (.plain hs)]
    exact hnumeral (by decide) hs
  · have hafter : after? "0x".toList ('0' :: 'x' :: s) = some s := after?_append "0x".toList s
    rw [hafter]
    exact hnumeral (by decide) hs

/-- Digits show one number. -/
theorem Unsigned.unique {digits : List Char} {n n' : Nat} (h : Unsigned digits n)
    (h' : Unsigned digits n') : n = n' := by
  have hnumeral : ∀ {base s}, base ≤ 16 → Numeral base s n → Numeral base s n' → n = n' := by
    intro base s hbase hs hs'
    rw [← digits?_eq_some_iff hbase] at hs hs'
    exact Option.some.inj (hs.symm.trans hs')
  rcases h with hs | hs
  · rcases h' with hs' | hs'
    · exact hnumeral (by decide) hs hs'
    · cases after?_of_signed (.plain hs)
  · rcases h' with hs' | hs'
    · cases after?_of_signed (.plain hs')
    · exact hnumeral (by decide) hs hs'

theorem Unsigned.head?_ne {digits : List Char} {n : Nat} (h : Unsigned digits n) :
    digits.head? ≠ some '-' := by
  rcases h with hs | hs
  · obtain ⟨c, rest, rfl⟩ := hs.exists_cons
    exact fun hc => (hs.head_ne (by decide)).2 (Option.some.inj hc)
  · exact nofun

/-- The digits are read if the number fits into 64 bits with a sign. -/
theorem Unsigned.magnitude? {digits : List Char} {n : Nat} (h : Unsigned digits n) :
    magnitude? digits = int64? n := by
  cases hfits : int64? n with
  | some m =>
    rw [magnitude?_eq_some_iff, ← (int64?_eq_some_iff n m).1 hfits]
    exact h.number
  | none =>
    -- what else could be read is a number without a sign too, hence the same one
    rw [Option.eq_none_iff_forall_ne_some]
    intro m hm
    obtain ⟨n', hn', hvalue⟩ := ((magnitude?_eq_some_iff digits m).1 hm).exists_unsigned h.signedInside
    obtain rfl := h.unique hn'
    rw [(int64?_eq_some_iff n m).2 hvalue.symm] at hfits
    cases hfits

/-! ## What is read -/

theorem integer?_of_ne {text : List Char} (h : text.head? ≠ some '-') :
    integer? text = magnitude? text := by
  unfold integer?
  split
  · exact absurd rfl h
  · rfl

theorem straySign_of_ne {text : List Char} (h : text.head? ≠ some '-') :
    straySign text = signedInside text := by
  unfold straySign
  cases text with
  | nil => rfl
  | cons c s =>
    have hc : '-' ≠ c := fun heq => h (congrArg some heq.symm)
    rw [after?, if_neg hc]
    rfl

theorem eq_minus_cons_or (text : List Char) :
    (∃ digits, text = '-' :: digits) ∨ text.head? ≠ some '-' := by
  cases text with
  | nil => exact Or.inr nofun
  | cons c s =>
    by_cases hc : c = '-'
    · exact Or.inl ⟨s, by rw [hc]⟩
    · exact Or.inr fun heq => hc (Option.some.inj heq)

/-- Every number of 64 bits but the least has its opposite there. -/
theorem toInt_neg_eq_iff (m : Int64) : (-m).toInt = -m.toInt ↔ m.toInt ≠ -2 ^ 63 := by
  have hlow := m.le_toInt
  have hhigh := m.toInt_lt
  rw [Int64.toInt_neg]
  constructor
  · intro h hleast
    rw [hleast] at h
    exact absurd h (by decide)
  · intro hne
    exact Int.bmod_eq_of_le (by omega) (by omega)

/-- Without a stray sign it is the integer that the text denotes. -/
theorem denotes_of_integer? {text : List Char} {m : Int64} (h : integer? text = some m)
    (hsign : straySign text = false) : Denotes text m.toInt := by
  rcases eq_minus_cons_or text with ⟨digits, rfl⟩ | hne
  · obtain ⟨k, hk, rfl⟩ := Option.map_eq_some_iff.1 h
    obtain ⟨n, hn, hvalue⟩ := ((magnitude?_eq_some_iff digits k).1 hk).exists_unsigned hsign
    rw [(toInt_neg_eq_iff k).2 (by omega), hvalue]
    exact .minus hn
  · rw [integer?_of_ne hne] at h
    rw [straySign_of_ne hne] at hsign
    obtain ⟨n, hn, hvalue⟩ := ((magnitude?_eq_some_iff text m).1 h).exists_unsigned hsign
    rw [hvalue]
    exact .plain hn

/-- An integer is read if its digits fit into 64 bits. -/
theorem integer?_of_denotes {text : List Char} {n : Int} (h : Denotes text n) :
    integer? text = if n.natAbs < 2 ^ 63 then some (Int64.ofInt n) else none := by
  rcases h with @⟨_, k, hs⟩ | @⟨digits, k, hs⟩
  · rw [integer?_of_ne hs.head?_ne, hs.magnitude?, int64?, Int.natAbs_natCast]
    split
    · rw [if_pos (by omega)]
    · rw [if_neg (by omega)]
  · show (Listing.magnitude? digits).map _ = _
    rw [hs.magnitude?, int64?, Int.natAbs_neg, Int.natAbs_natCast]
    split
    · rw [if_pos (by omega), Int64.ofInt_neg]
      rfl
    · rw [if_neg (by omega)]
      rfl

theorem Denotes.straySign {text : List Char} {n : Int} (h : Denotes text n) :
    straySign text = false := by
  rcases h with hs | hs
  · rw [straySign_of_ne hs.head?_ne]
    exact hs.signedInside
  · exact hs.signedInside

theorem readInteger_eq_ok_iff (low high : Int) (text : List Char) (n : Int) :
    readInteger low high text = .ok n ↔
      ∃ m, integer? text = some m ∧ n = m.toInt ∧ low ≤ n ∧ n ≤ high := by
  unfold readInteger
  cases integer? text with
  | none => simp
  | some m =>
    constructor
    · intro h
      simp only at h
      split at h
      · next hrange =>
        obtain rfl := Except.ok.inj h
        exact ⟨m, rfl, rfl, hrange⟩
      · cases h
    · rintro ⟨_, ⟨⟩, rfl, hrange⟩
      exact if_pos hrange

theorem readInteger_of_denotes {text : List Char} {n : Int} (h : Denotes text n)
    (hfits : n.natAbs < 2 ^ 63) {low high : Int} (hrange : low ≤ n ∧ n ≤ high) :
    readInteger low high text = .ok n := by
  rw [readInteger_eq_ok_iff]
  refine ⟨Int64.ofInt n, ?_, ?_, hrange⟩
  · rw [integer?_of_denotes h, if_pos hfits]
  · rw [Int64.toInt_ofInt_of_le (by omega) (by omega)]

/-- The number that has no opposite is the least, and only a second minus sign gives it. -/
theorem overflows_iff (text : List Char) :
    Overflows text ↔ ∃ s, (text = '-' :: '-' :: s ∧ Numeral 10 s (2 ^ 63)) ∨
      (text = '-' :: '0' :: 'x' :: '-' :: s ∧ Numeral 16 s (2 ^ 63)) := by
  -- only a second minus sign makes a number negative
  have hleast : ∀ {base s}, Signed base s (-2 ^ 63) ↔ ∃ t, s = '-' :: t ∧ Numeral base t (2 ^ 63) := by
    intro base s
    constructor
    · intro h
      generalize hm : (-2 ^ 63 : Int) = m at h
      rcases h with @⟨_, n, hs⟩ | @⟨t, n, hs⟩ | @⟨t, n, hs⟩
      · omega
      · omega
      · obtain rfl : n = 2 ^ 63 := by omega
        exact ⟨t, rfl, hs⟩
    · rintro ⟨t, rfl, ht⟩
      exact .minus ht
  constructor
  · rintro ⟨digits, m, rfl, hm, hne⟩
    have hvalue : m.toInt = -2 ^ 63 := by
      by_contra hother
      exact hne ((toInt_neg_eq_iff m).2 hother)
    rw [magnitude?_eq_some_iff, hvalue] at hm
    generalize hk : (-2 ^ 63 : Int) = k at hm
    rcases hm with hs | hs
    · rw [← hk] at hs
      obtain ⟨t, rfl, ht⟩ := hleast.1 hs
      exact ⟨t, Or.inl ⟨rfl, ht⟩⟩
    · rw [← hk] at hs
      obtain ⟨t, rfl, ht⟩ := hleast.1 hs
      exact ⟨t, Or.inr ⟨rfl, ht⟩⟩
  · have hoverflows : ∀ digits, Number digits (-2 ^ 63) → Overflows ('-' :: digits) := by
      intro digits hs
      refine ⟨digits, Int64.minValue, rfl, ?_, by decide⟩
      rw [magnitude?_eq_some_iff, Int64.toInt_minValue]
      exact hs
    rintro ⟨s, ⟨rfl, hs⟩ | ⟨rfl, hs⟩⟩
    · exact hoverflows _ (.decimal (hleast.2 ⟨s, rfl, hs⟩))
    · exact hoverflows _ (.hexadecimal (hleast.2 ⟨s, rfl, hs⟩))

/-- **What is read denotes what it is read as, stray signs apart.**  No range takes a text for an integer
that it does not denote, and the least number is not negated for it, just if the text has no stray sign or
is refused all the same.  Texts without a stray sign are read just if they denote an integer in the range,
of which the digits fit into 64 bits.  The least number is negated for its digits behind two minus signs. -/
theorem readInteger_denotes_iff (text : List Char) :
    (((∀ low high n, readInteger low high text = .ok n → Denotes text n) ∧ ¬ Overflows text) ↔
      (straySign text = true → integer? text = none)) ∧
    (straySign text = false → ∀ low high n, readInteger low high text = .ok n ↔
      Denotes text n ∧ n.natAbs < 2 ^ 63 ∧ low ≤ n ∧ n ≤ high) ∧
    (Overflows text ↔ ∃ s, (text = '-' :: '-' :: s ∧ Numeral 10 s (2 ^ 63)) ∨
      (text = '-' :: '0' :: 'x' :: '-' :: s ∧ Numeral 16 s (2 ^ 63))) := by
  refine ⟨⟨?_, ?_⟩, ?_, overflows_iff text⟩
  · rintro ⟨hdenotes, -⟩ hsign
    rw [Option.eq_none_iff_forall_ne_some]
    intro m hm
    -- some range takes what is read
    have hread : readInteger m.toInt m.toInt text = .ok m.toInt :=
      (readInteger_eq_ok_iff _ _ _ _).2 ⟨m, hm, rfl, Int.le_refl _, Int.le_refl _⟩
    rw [(hdenotes _ _ _ hread).straySign] at hsign
    cases hsign
  · intro hrefused
    constructor
    · intro low high n hread
      obtain ⟨m, hm, rfl, -⟩ := (readInteger_eq_ok_iff low high text n).1 hread
      refine denotes_of_integer? hm (Bool.eq_false_iff.2 fun hsign => ?_)
      rw [hrefused hsign] at hm
      cases hm
    · intro hoverflows
      have hsign : straySign text = true := by
        obtain ⟨s, ⟨rfl, -⟩ | ⟨rfl, -⟩⟩ := (overflows_iff text).1 hoverflows <;> rfl
      obtain ⟨digits, m, rfl, hm, -⟩ := hoverflows
      have hnone := hrefused hsign
      rw [integer?, hm] at hnone
      cases hnone
  · intro hsign low high n
    constructor
    · intro hread
      obtain ⟨m, hm, rfl, hrange⟩ := (readInteger_eq_ok_iff low high text n).1 hread
      have hdenotes := denotes_of_integer? hm hsign
      refine ⟨hdenotes, ?_, hrange⟩
      by_contra hlarge
      rw [integer?_of_denotes hdenotes, if_neg hlarge] at hm
      cases hm
    · rintro ⟨hdenotes, hfits, hrange⟩
      exact readInteger_of_denotes hdenotes hfits hrange

/-- The minus sign in front of hexadecimal digits is no stray one. -/
theorem readInteger_minus_hexadecimal :
    straySign "-0x7F".toList = false ∧ readInteger (-128) 127 "-0x7F".toList = .ok (-127) ∧
      Denotes "-0x7F".toList (-127) ∧ ¬ Overflows "-0x7F".toList := by
  have hsign : straySign "-0x7F".toList = false := by decide
  have hread : readInteger (-128) 127 "-0x7F".toList = .ok (-127) := by decide +kernel
  obtain ⟨hclaim, hreads, -⟩ := readInteger_denotes_iff "-0x7F".toList
  refine ⟨hsign, hread, ((hreads hsign _ _ _).1 hread).1, (hclaim.2 fun hstray => ?_).2⟩
  rw [hsign] at hstray
  cases hstray

/-- Two minus signs, a plus sign and a sign behind `0x` are read, and the least number is negated. -/
theorem stray_signs_read :
    (readInteger (-0x80000000) 0x7FFFFFFF "--5".toList = .ok 5 ∧ ∀ n, ¬ Denotes "--5".toList n) ∧
    (readInteger 0 0xFFFF "+5".toList = .ok 5 ∧ ∀ n, ¬ Denotes "+5".toList n) ∧
    (readInteger (-0x80000000) 0x7FFFFFFF "0x-5".toList = .ok (-5) ∧
      ∀ n, ¬ Denotes "0x-5".toList n) ∧
    Overflows "--9223372036854775808".toList := by
  have hnot : ∀ text, straySign text = true → ∀ n, ¬ Denotes text n := by
    intro text hsign n hdenotes
    rw [hdenotes.straySign] at hsign
    cases hsign
  refine ⟨⟨by decide +kernel, hnot _ (by decide)⟩, ⟨by decide +kernel, hnot _ (by decide)⟩,
    ⟨by decide +kernel, hnot _ (by decide)⟩, ?_⟩
  exact ⟨"-9223372036854775808".toList, Int64.minValue, rfl, by decide +kernel, by decide⟩

end Listing

end PushGuard
