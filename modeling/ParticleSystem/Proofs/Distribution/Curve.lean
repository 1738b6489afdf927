import ParticleSystem.Distribution.Curve

namespace ParticleSystem.Curve

section Bisect

variable {test : Nat → Bool}

/-- From an index that passes, halving ends behind an index that passes. -/
theorem bisect_of_passes {base : Nat} (passes : test base = true) (size : Nat) :
    ∃ index, bisect test base size = index + 1 ∧ test index = true := by
  fun_induction bisect test base size with
  | case1 base size long ih =>
    apply ih
    split
    · assumption
    · exact passes
  | case2 base size short own => exact ⟨base, rfl, own⟩
  | case3 base size short own => exact absurd passes own

theorem bisect_of_fails (fails : ∀ index, test index = false) (base size : Nat) :
    bisect test base size = base := by
  fun_induction bisect test base size with
  | case1 base size long ih =>
    simp only [fails, Bool.false_eq_true, dite_false, if_false] at ih ⊢
    exact ih
  | case2 base size short own =>
    rw [fails] at own
    cases own
  | case3 base size short own => rfl

/-- Where the indices that pass come first, halving ends behind all of them. -/
theorem bisect_partition (falls : ∀ i j, i ≤ j → test j = true → test i = true) (base size : Nat)
    (beyond : ∀ index, base + size ≤ index → test index = false) :
    ∀ index, bisect test base size ≤ index → test index = false := by
  have fails {i j : Nat} (own : test i = false) (behind : i ≤ j) : test j = false := by
    rw [Bool.eq_false_iff] at own ⊢
    exact fun passes => own (falls i j behind passes)
  fun_induction bisect test base size with
  | case1 base size long ih =>
    apply ih
    intro index behind
    split at behind
    · exact beyond index (by omega)
    · rename_i middle
      exact fails (Bool.eq_false_iff.mpr middle) (by omega)
  | case2 base size short own =>
    intro index behind
    exact beyond index (by omega)
  | case3 base size short own =>
    intro index behind
    exact fails (Bool.eq_false_iff.mpr own) behind

end Bisect

variable {α : Type} [Scalar α]

theorem reached_iff {keys : List (CurveKey α)} {x : α} {i : Nat} :
    reached keys x i = true ↔ ∃ key, keys[i]? = some key ∧ key.time ≤ x := by
  unfold reached
  split
  · rename_i key found
    simp [found]
  · rename_i missing
    simp [missing]

/-- From the time of the first key on and before that of the last, the
bracket is made up of keys that exist. -/
theorem upperIndex_inside {keys : List (CurveKey α)} {x : α} {first last : CurveKey α}
    (head : keys.head? = some first) (tail : keys.getLast? = some last) (behind : first.time ≤ x)
    (before : ¬last.time ≤ x) :
    ∃ lower, upperIndex keys x = lower + 1 ∧ reached keys x lower = true ∧
      lower + 1 < keys.length := by
  have start : reached keys x 0 = true :=
    reached_iff.mpr ⟨first, List.head?_eq_getElem? ▸ head, behind⟩
  obtain ⟨lower, upper, passes⟩ := bisect_of_passes start keys.length
  obtain ⟨key, found, below⟩ := reached_iff.mp passes
  refine ⟨lower, upper, passes, ?_⟩
  -- The last key lies behind the abscissa, so the one that was found has a key behind it.
  obtain ⟨within, same⟩ := List.getElem?_eq_some_iff.mp found
  rcases Nat.lt_or_ge (lower + 1) keys.length with inside | past
  · exact inside
  · have here : lower = keys.length - 1 := by omega
    rw [List.getLast?_eq_getElem?, ← here, found] at tail
    cases tail
    exact absurd below before

variable {c : Curve α} {x : α}

/-- A curve has a value at every abscissa that lies before or behind its first key. -/
theorem sample_ok
    (compares : ∀ first, c.keys.head? = some first → ¬x ≤ first.time → first.time ≤ x) :
    ∃ value, c.sample x = .ok value := by
  unfold sample
  split
  · rename_i first last head tail
    split
    · exact ⟨_, rfl⟩
    · rename_i behind
      split
      · exact ⟨_, rfl⟩
      · rename_i before
        obtain ⟨lower, upper, passes, inside⟩ :=
          upperIndex_inside head tail (compares first head behind) before
        obtain ⟨key, found, -⟩ := reached_iff.mp passes
        rw [upper]
        simp only [found, List.getElem?_eq_getElem inside]
        exact ⟨_, rfl⟩
  · exact ⟨_, rfl⟩

theorem sample_incomparable (some : c.keys ≠ [])
    (apart : ∀ key ∈ c.keys, ¬x ≤ key.time ∧ ¬key.time ≤ x) : c.sample x = .error .noLowerKey := by
  have fails (index : Nat) : reached c.keys x index = false := by
    rw [Bool.eq_false_iff, ne_eq, reached_iff]
    rintro ⟨key, found, below⟩
    exact (apart key (List.mem_of_getElem? found)).2 below
  have first := apart _ (List.head_mem some)
  have last := apart _ (List.getLast_mem some)
  simp only [sample, List.head?_eq_some_head some, List.getLast?_eq_some_getLast some, first.1,
    last.2, if_false, upperIndex, bisect_of_fails fails]

theorem value_eq {f : α → α} (sampled : ∀ x, c.sample x = .ok (f x)) {value : α}
    (own : c.sample x = .ok value) : f x = value := Except.ok.inj ((sampled x).symm.trans own)

end ParticleSystem.Curve
