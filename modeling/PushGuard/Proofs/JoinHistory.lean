import PushGuard.Proofs.StateOrder

/-!
# What a note remembers

States come to a noted instruction one after the other, and its note takes in each of them.  A join forgets
the older state where the sizes differ, so joins are neither commutative nor associative, and a state that
is forgotten never comes back.  What the note remembers of all the states is therefore their last run: those
at the end that have the size of the last one (`IsLastRun`).  It holds the greatest of them (`Remembers`).
Within a run the order does not matter, and neither does how often a state comes.
-/

namespace PushGuard

/-- The longest end of the history in which all states have this size. -/
structure IsLastRun (history : List StackState) (size : Nat) (run : List StackState) : Prop where
  suffix : run <:+ history
  size_eq : ∀ s ∈ run, s.size = size
  longest : ∀ other, other <:+ history → (∀ s ∈ other, s.size = size) → other <:+ run

/-- The state is the greatest of the last run of its size. -/
def Remembers (history : List StackState) (s : StackState) : Prop :=
  ∃ run, IsLastRun history s.size run ∧ IsGreatest {r | r ∈ run} s

namespace IsLastRun

variable {history run : List StackState} {size : Nat}

/-- A state of the same size goes on with the run. -/
theorem concat (h : IsLastRun history size run) {t : StackState} (ht : t.size = size) :
    IsLastRun (history ++ [t]) size (run ++ [t]) where
  suffix := List.suffix_append_self_iff.2 h.suffix
  size_eq := by
    intro s hs
    rcases List.mem_append.1 hs with hs | hs
    · exact h.size_eq s hs
    · rw [List.mem_singleton.1 hs, ht]
  longest := by
    intro other hother hsize
    rcases List.suffix_concat_iff.1 hother with rfl | ⟨front, rfl, hfront⟩
    · exact List.nil_suffix
    · have hfrontSize : ∀ s ∈ front, s.size = size :=
        fun s hs => hsize s (List.mem_append_left _ hs)
      exact List.suffix_append_self_iff.2 (h.longest front hfront hfrontSize)

/-- A state of another size than the last one starts a run. -/
theorem start {t : StackState} (h : ∀ s ∈ history.getLast?, s.size ≠ t.size) :
    IsLastRun (history ++ [t]) t.size [t] where
  suffix := List.suffix_append history [t]
  size_eq := by
    intro s hs
    rw [List.mem_singleton.1 hs]
  longest := by
    intro other hother hsize
    rcases List.suffix_concat_iff.1 hother with rfl | ⟨front, rfl, hfront⟩
    · exact List.nil_suffix
    · cases hlast : front.getLast? with
      | none =>
        rw [List.getLast?_eq_none_iff.1 hlast]
        exact List.suffix_rfl
      | some s =>
        -- the last state in front of `t` would be part of the run
        have hs : s.size = t.size :=
          hsize s (List.mem_append_left _ (List.mem_of_getLast? hlast))
        have hsuffix := List.singleton_suffix_iff_getLast?_eq_some.2 hlast
        exact absurd hs (h s (List.singleton_suffix_iff_getLast?_eq_some.1 (hsuffix.trans hfront)))

/-- If all states have this size, the run is the whole history. -/
theorem whole (h : ∀ s ∈ history, s.size = size) : IsLastRun history size history where
  suffix := List.suffix_rfl
  size_eq := h
  longest := fun _ hother _ => hother

theorem unique {other : List StackState} (h : IsLastRun history size run)
    (hother : IsLastRun history size other) : run = other := by
  have hle := h.longest other hother.suffix hother.size_eq
  exact (hother.longest run h.suffix h.size_eq).eq_of_length_le hle.length_le

/-- The last state of the run is the last state. -/
theorem size_of_getLast? (h : IsLastRun history size run) (hrun : run ≠ []) {last : StackState}
    (hlast : history.getLast? = some last) : last.size = size := by
  have hend : [run.getLast hrun] <:+ run :=
    List.singleton_suffix_iff_getLast?_eq_some.2 (List.getLast?_eq_some_getLast hrun)
  have hsame := List.singleton_suffix_iff_getLast?_eq_some.1 (hend.trans h.suffix)
  rw [hlast, Option.some_inj] at hsame
  rw [hsame]
  exact h.size_eq _ (List.getLast_mem hrun)

end IsLastRun

namespace Remembers

variable {history : List StackState} {s t : StackState}

theorem start (s : StackState) : Remembers [s] s := by
  refine ⟨[s], IsLastRun.whole (by simp), ?_⟩
  simp

theorem size_of_getLast? (h : Remembers history s) {last : StackState}
    (hlast : history.getLast? = some last) : last.size = s.size := by
  obtain ⟨run, hrun, hgreatest⟩ := h
  exact hrun.size_of_getLast? (List.ne_nil_of_mem hgreatest.1) hlast

/-- One more state comes: it joins the run, or it starts one and all before it is forgotten. -/
theorem merge (h : Remembers history s) (t : StackState) :
    Remembers (history ++ [t]) (s.merge (.merged t)) := by
  by_cases hsize : t.size = s.size
  · obtain ⟨run, hrun, hgreatest⟩ := h
    have hmerged : (s.merge (.merged t)).size = s.size := by
      rw [StackState.merge_of_size_eq s t hsize, StackState.clamp_size, hsize]
    have hset : {r | r ∈ run ++ [t]} = {r | r ∈ run} ∪ {t} := by
      ext r
      simp [or_comm]
    refine ⟨run ++ [t], ?_, ?_⟩
    · rw [hmerged]
      exact hrun.concat hsize
    · rw [hset]
      exact StackState.isGreatest_merge hgreatest isGreatest_singleton hsize.symm
  · rw [StackState.merge_of_size_ne s t hsize]
    refine ⟨[t], IsLastRun.start fun last hlast hother => ?_, ?_⟩
    · exact hsize (hother.symm.trans (h.size_of_getLast? hlast))
    · simp

/-- Of states of one size the greatest is remembered, whenever it came. -/
theorem isGreatest (h : Remembers history s) {size : Nat} (hsize : ∀ t ∈ history, t.size = size) :
    IsGreatest {r | r ∈ history} s := by
  obtain ⟨run, hrun, hgreatest⟩ := h
  have hs : s.size = size := hsize s (hrun.suffix.mem hgreatest.1)
  rw [hs] at hrun
  rwa [hrun.unique (IsLastRun.whole hsize)] at hgreatest

/-- A note that holds what it should of the states so far, holds what it should when more have come. -/
theorem foldl_absorb (h : Remembers history s) (states : List StackState) :
    ∃ m, states.foldl Pending.absorb (.merged s) = .merged m ∧ Remembers (history ++ states) m := by
  induction states generalizing history s with
  | nil => exact ⟨s, rfl, by rwa [List.append_nil]⟩
  | cons t states ih =>
    obtain ⟨m, hfold, hm⟩ := ih (h.merge t)
    refine ⟨m, hfold, ?_⟩
    rwa [List.append_assoc] at hm

/-- The greatest tainted part in the run. -/
theorem exists_max_of_run (h : Remembers history s) :
    ∃ run, IsLastRun history s.size run ∧ (run.map StackState.tainted).max? = some s.tainted := by
  obtain ⟨run, hrun, hmem, hle⟩ := h
  refine ⟨run, hrun, List.max?_eq_some_iff.2 ⟨List.mem_map_of_mem hmem, ?_⟩⟩
  intro n hn
  obtain ⟨r, hr, rfl⟩ := List.mem_map.1 hn
  exact (hle hr).2

end Remembers

namespace Pending

theorem foldl_absorb_forced (f : StackState) (states : List StackState) :
    states.foldl absorb (.forced f) = .forced f := by
  induction states with
  | nil => rfl
  | cons t states ih => exact ih

/-- It matters which states of one size come, but neither in what order nor how often. -/
theorem foldl_absorb_congr {s s' : StackState} {states states' : List StackState}
    (hsize : ∀ t ∈ s :: states, t.size = s.size) (hmem : ∀ t, t ∈ s :: states ↔ t ∈ s' :: states') :
    states.foldl absorb (.merged s) = states'.foldl absorb (.merged s') := by
  obtain ⟨m, hfold, hm⟩ := (Remembers.start s).foldl_absorb states
  obtain ⟨m', hfold', hm'⟩ := (Remembers.start s').foldl_absorb states'
  have hgreatest : IsGreatest {r | r ∈ s :: states} m := hm.isGreatest hsize
  have hgreatest' : IsGreatest {r | r ∈ s' :: states'} m' :=
    hm'.isGreatest fun t ht => hsize t ((hmem t).2 ht)
  have hset : {r | r ∈ s :: states} = {r | r ∈ s' :: states'} := Set.ext hmem
  rw [hset] at hgreatest
  rw [hfold, hfold', hgreatest.unique hgreatest']

/-- **What a note remembers.**  A merged note that takes in one state after another has the size of the last
of them, and as its tainted part the largest one in the last run, the longest end of the history (the note's
first state included) in which all states have this size.  So the tainted part is no larger than the stack,
and if all states have one size, neither their order nor repetitions matter.  A forced note stays as it is. -/
theorem absorb_remembers_last_run (s : StackState) (states : List StackState) :
    (∃ m run, states.foldl absorb (.merged s) = .merged m ∧
      m.size = ((s :: states).getLast (List.cons_ne_nil s states)).size ∧
      IsLastRun (s :: states) m.size run ∧
      (run.map StackState.tainted).max? = some m.tainted ∧ m.tainted ≤ m.size) ∧
    (∀ f, states.foldl absorb (.forced f) = .forced f) ∧
    ∀ s' states', (∀ t ∈ s :: states, t.size = s.size) → (∀ t, t ∈ s :: states ↔ t ∈ s' :: states') →
      states.foldl absorb (.merged s) = states'.foldl absorb (.merged s') := by
  refine ⟨?_, fun f => foldl_absorb_forced f states, fun _ _ => foldl_absorb_congr⟩
  obtain ⟨m, hfold, hm⟩ := (Remembers.start s).foldl_absorb states
  have hlast := List.getLast?_eq_some_getLast (List.cons_ne_nil s states)
  obtain ⟨run, hrun, hmax⟩ := hm.exists_max_of_run
  exact ⟨m, run, hfold, (hm.size_of_getLast? hlast).symm, hrun, hmax, m.tainted_le⟩

/-- The first of four states has the largest tainted part, but the second one has another size and interrupts
the run.  The last two are remembered; with them alone, it does not matter which comes first. -/
theorem interruptedRun_remembered :
    let first := StackState.clamp 2 2
    let other := StackState.clamp 3 3
    let low := StackState.clamp 2 0
    let high := StackState.clamp 2 1
    (∃ run, IsLastRun [first, other, high, low] 2 run ∧
      (run.map StackState.tainted).max? = some 1) ∧
    [low, high].foldl absorb (.merged high) = [high].foldl absorb (.merged low) := by
  intro first other low high
  constructor
  · obtain ⟨⟨m, run, hfold, -, hrun, hmax, -⟩, -⟩ := absorb_remembers_last_run first [other, high, low]
    have hm : Pending.merged high = .merged m := by
      rw [← hfold]
      decide
    obtain rfl := Pending.merged.inj hm
    exact ⟨run, hrun, hmax⟩
  · refine (absorb_remembers_last_run high [low, high]).2.2 low [high] (by decide) fun t => ?_
    simp only [List.mem_cons, List.not_mem_nil, or_false]
    tauto

end Pending

end PushGuard
