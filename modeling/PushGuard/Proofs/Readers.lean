import PushGuard.Proofs.ByteWords

/-!
# Readers take the front of their bytes

A reader gives back the bytes that it does not need.  `ReadsFront` says that it has not looked at them
either: if they are cut off, it reads the same; and if a byte is cut off that it needs, it finds that
the bytes end too early, and nothing else.  A reader that is put together from such readers is one
(`ReadsFront.bind`), so no reader of the format has to be opened for this.
-/

namespace PushGuard.Binary

variable {α β : Type}

/-- What the reader takes from the bytes are the first `width` of them. -/
structure Takes (read : List UInt8 → Except BinaryFault (α × List UInt8)) (bytes : List UInt8)
    (width : Nat) (a : α) (rest : List UInt8) : Prop where
  width_le : width ≤ bytes.length
  rest_eq : rest = bytes.drop width
  of_le : ∀ k, width ≤ k → read (bytes.take k) = .ok (a, rest.take (k - width))
  of_lt : ∀ k < width, read (bytes.take k) = .error .truncated

/-- How much was taken is known from what is left. -/
theorem Takes.width_eq {read : List UInt8 → Except BinaryFault (α × List UInt8)}
    {bytes rest : List UInt8} {width n : Nat} {a : α} (h : Takes read bytes width a rest)
    (hle : n ≤ bytes.length) (hrest : rest = bytes.drop n) : width = n := by
  have hwidth := h.width_le
  have hlength := congrArg List.length (h.rest_eq.symm.trans hrest)
  rw [List.length_drop, List.length_drop] at hlength
  omega

/-- Whatever the reader accepts, it takes from the front. -/
def ReadsFront (read : List UInt8 → Except BinaryFault (α × List UInt8)) : Prop :=
  ∀ bytes a rest, read bytes = .ok (a, rest) → ∃ width, Takes read bytes width a rest

theorem readsFront_pure (a : α) : ReadsFront fun bytes => .ok (a, bytes) := by
  intro bytes a' rest h
  obtain ⟨rfl, rfl⟩ := Prod.mk.inj (Except.ok.inj h)
  exact ⟨0, Nat.zero_le _, rfl, fun k _ => rfl, fun k hk => absurd hk (Nat.not_lt_zero k)⟩

theorem readsFront_error (fault : BinaryFault) :
    ReadsFront fun _ => (.error fault : Except BinaryFault (α × List UInt8)) := by
  intro bytes a rest h
  cases h

/-- One reader behind the other. -/
theorem ReadsFront.bind {read : List UInt8 → Except BinaryFault (α × List UInt8)}
    {next : α × List UInt8 → Except BinaryFault (β × List UInt8)} (h : ReadsFront read)
    (hnext : ∀ a, ReadsFront fun bytes => next (a, bytes)) :
    ReadsFront fun bytes => read bytes >>= next := by
  intro bytes b rest hboth
  obtain ⟨⟨a, middle⟩, hfirst, hsecond⟩ := (bind_eq_ok_iff _ _ _).1 hboth
  obtain ⟨width, htakes⟩ := h bytes a middle hfirst
  obtain ⟨width', htakes'⟩ := hnext a middle b rest hsecond
  have hle := htakes.width_le
  have hle' := htakes'.width_le
  rw [htakes.rest_eq, List.length_drop] at hle'
  refine ⟨width + width', by omega, ?_, fun k hk => ?_, fun k hk => ?_⟩
  · rw [htakes'.rest_eq, htakes.rest_eq, List.drop_drop]
  · show (read (bytes.take k) >>= next) = _
    rw [htakes.of_le k (by omega), ← Nat.sub_sub]
    exact htakes'.of_le (k - width) (by omega)
  · show (read (bytes.take k) >>= next) = _
    by_cases hfirst : k < width
    · rw [htakes.of_lt k hfirst]
      rfl
    · rw [htakes.of_le k (by omega)]
      exact htakes'.of_lt (k - width) (by omega)

theorem readsFront_readWord (width : Nat) : ReadsFront (readWord width) := by
  intro bytes n rest h
  obtain ⟨hle, rfl, rfl⟩ := readWord_eq_ok_iff.1 h
  refine ⟨width, hle, rfl, fun k hk => ?_, fun k hk => ?_⟩
  · rw [readWord_eq_ok_iff, List.length_take, List.drop_take]
    refine ⟨by omega, ?_, rfl⟩
    unfold wordAt
    rw [List.drop_zero, List.drop_zero, List.take_take, Nat.min_eq_left hk]
  · apply readWord_of_lt
    rw [List.length_take]
    omega

theorem readsFront_readWords (count : Nat) : ReadsFront (readWords count) := by
  induction count with
  | zero => exact readsFront_pure []
  | succ count ih =>
    exact (readsFront_readWord 4).bind fun word => ih.bind fun words => readsFront_pure _

end PushGuard.Binary
