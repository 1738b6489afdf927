import ParticleSystem.Proofs.Distribution.Curve
import ParticleSystem.Proofs.Scalar.Exact
import ParticleSystem.Proofs.Scalar.Single

/-!
Curves whose keys are sorted by time. In single precision they have a value at everything
that is a number. In exact arithmetic they are held at their ends and run straight from key
to key, but for neighbours that are too close to divide by: from the earlier of these on the
curve already has the value of the later.
-/

namespace ParticleSystem.Curve

section Sorted

variable {α : Type} [Scalar α]

/-- Whether a measure of the keys never falls from one to the
next, nor fails to compare with itself. -/
def Rises (measure : CurveKey α → α) (keys : List (CurveKey α)) : Prop :=
  (∀ key ∈ keys, measure key ≤ measure key) ∧ keys.Pairwise fun first second =>
    measure first ≤ measure second

theorem Rises.le {measure : CurveKey α → α} {keys : List (CurveKey α)} (rises : Rises measure keys)
    {i j : Nat} {first second : CurveKey α} (order : i ≤ j) (here : keys[i]? = some first)
    (there : keys[j]? = some second) : measure first ≤ measure second := by
  rcases order.lt_or_eq with less | rfl
  · obtain ⟨_, rfl⟩ := List.getElem?_eq_some_iff.mp here
    obtain ⟨_, rfl⟩ := List.getElem?_eq_some_iff.mp there
    exact List.pairwise_iff_getElem.mp rises.2 i j _ _ less
  · obtain rfl := Option.some.inj (here.symm.trans there)
    exact rises.1 first (List.mem_of_getElem? here)

/-- Whether the keys are sorted by time, repeated times allowed. -/
def Sorted (c : Curve α) : Prop := Rises CurveKey.time c.keys

end Sorted

section Single

variable {c : Curve Float32} {x : Float32} {first last : CurveKey Float32}

theorem first_le_of_not_le (sorted : c.Sorted) (number : x.isNaN = false)
    (head : c.keys.head? = some first) (behind : ¬x ≤ first.time) : first.time ≤ x := by
  have timed := Single.isNaN_of_le (sorted.1 first (List.mem_of_head? head))
  exact Single.le_total number timed.1 behind

/-- Sampling a sorted curve fails where the abscissa is no number, and there only. -/
theorem sample_eq_error_iff (sorted : c.Sorted) (x : Float32) (fault : CurveFault) :
    c.sample x = .error fault ↔ c.keys ≠ [] ∧ x.isNaN = true ∧ fault = .noLowerKey := by
  cases number : x.isNaN with
  | true =>
    by_cases none : c.keys = []
    · simp [sample, none]
    · have apart : ∀ key ∈ c.keys, ¬x ≤ key.time ∧ ¬key.time ≤ x := by
        intro key _
        refine ⟨fun compares => ?_, fun compares => ?_⟩
        · exact Bool.false_ne_true ((Single.isNaN_of_le compares).1.symm.trans number)
        · exact Bool.false_ne_true ((Single.isNaN_of_le compares).2.symm.trans number)
      rw [sample_incomparable none apart]
      simp [none, eq_comm]
  | false =>
    obtain ⟨value, sampled⟩ := sample_ok fun first head =>
      first_le_of_not_le (c := c) (x := x) sorted number head
    simp [sampled]

private theorem upperIndex_mem (sorted : c.Sorted) (number : x.isNaN = false)
    (head : c.keys.head? = some first) (tail : c.keys.getLast? = some last)
    (behind : ¬x ≤ first.time) (before : ¬last.time ≤ x) :
    0 < upperIndex c.keys x ∧ upperIndex c.keys x < c.keys.length := by
  obtain ⟨lower, upper, -, inside⟩ :=
    upperIndex_inside head tail (first_le_of_not_le sorted number head behind) before
  omega

end Single

/-- Two neighbouring keys, the first of them the last that is not after the abscissa. -/
structure Brackets {K : Type} [LinearOrder K] (keys : List (CurveKey K)) (x : K) (lower : Nat)
    (a b : CurveKey K) : Prop where
  first : keys[lower]? = some a
  next : keys[lower + 1]? = some b
  reached_iff : ∀ j key, keys[j]? = some key → (key.time ≤ x ↔ j ≤ lower)

namespace Brackets

variable {K : Type} [LinearOrder K] {keys : List (CurveKey K)} {x : K} {lower : Nat}
  {a b : CurveKey K}

theorem reached (bracket : Brackets keys x lower a b) : a.time ≤ x :=
  (bracket.reached_iff lower a bracket.first).mpr le_rfl

theorem before (bracket : Brackets keys x lower a b) : x < b.time := by
  by_contra behind
  have early := (bracket.reached_iff (lower + 1) b bracket.next).mp (not_lt.mp behind)
  omega

end Brackets

variable {K : Type} [Field K] [LinearOrder K] [FloorRing K] [Elementary K]

section Inside

variable {c : Curve K} {first last : CurveKey K} {x : K}

theorem sample_inside (sorted : c.Sorted) (head : c.keys.head? = some first)
    (tail : c.keys.getLast? = some last) (behind : first.time < x) (before : x < last.time) :
    ∃ lower a b, Brackets c.keys x lower a b ∧ c.sample x = .ok (between a b x) := by
  obtain ⟨lower, upper, passes, inside⟩ := upperIndex_inside head tail behind.le (not_le.mpr before)
  obtain ⟨a, found, early⟩ := reached_iff.mp passes
  have next : c.keys[lower + 1]? = some c.keys[lower + 1] := List.getElem?_eq_getElem inside
  have falls (i j : Nat) (le : i ≤ j) (late : reached c.keys x j = true) :
      reached c.keys x i = true := by
    obtain ⟨second, there, early⟩ := reached_iff.mp late
    have within : i < c.keys.length := le.trans_lt (List.getElem?_eq_some_iff.mp there).1
    have here := List.getElem?_eq_getElem within
    exact reached_iff.mpr ⟨_, here, le_trans (Rises.le sorted le here there) early⟩
  have beyond (index : Nat) (past : 0 + c.keys.length ≤ index) :
      reached c.keys x index = false := by
    rw [Bool.eq_false_iff, ne_eq, reached_iff]
    rintro ⟨key, there, -⟩
    have within := (List.getElem?_eq_some_iff.mp there).1
    omega
  have fails := bisect_partition falls 0 c.keys.length beyond
  rw [← upperIndex, upper] at fails
  refine ⟨lower, a, c.keys[lower + 1],
    ⟨found, next, fun j key there => ⟨fun early => ?_, fun le => ?_⟩⟩, ?_⟩
  · by_contra late
    have none := fails j (by omega)
    rw [reached_iff.mpr ⟨key, there, early⟩] at none
    cases none
  · exact le_trans (Rises.le sorted le there found) early
  · simp only [sample, head, tail, upper, found, next, if_neg (not_le.mpr behind),
      if_neg (not_le.mpr before)]

theorem sample_first (head : c.keys.head? = some first) (tail : c.keys.getLast? = some last)
    (before : x ≤ first.time) : c.sample x = .ok first.value := by
  simp only [sample, head, tail, if_pos before]

theorem sample_last (head : c.keys.head? = some first) (tail : c.keys.getLast? = some last)
    (behind : first.time < x) (past : last.time ≤ x) : c.sample x = .ok last.value := by
  simp only [sample, head, tail, if_neg (not_le.mpr behind), if_pos past]

end Inside

section Between

variable {a b : CurveKey K} {x y : K}

theorem between_of_close (close : b.time - a.time ≤ Scalar.epsilon) : between a b x = b.value :=
  if_pos close

theorem between_of_apart (apart : Scalar.epsilon < b.time - a.time) :
    between a b x = AffineMap.lineMap a.value b.value ((x - a.time) / (b.time - a.time)) := by
  rw [AffineMap.lineMap_apply_ring', between, if_neg (not_le.mpr apart)]
  ring

variable [IsStrictOrderedRing K]

theorem between_mem (reached : a.time ≤ x) (before : x ≤ b.time) :
    between a b x ∈ Set.uIcc a.value b.value := by
  rcases le_or_gt (b.time - a.time) Scalar.epsilon with close | apart
  · rw [between_of_close close]
    exact Set.right_mem_uIcc
  · have span := Scalar.epsilon_pos.trans apart
    have share : (x - a.time) / (b.time - a.time) ∈ Set.Icc 0 1 :=
      ⟨div_nonneg (sub_nonneg.mpr reached) span.le,
        (div_le_one span).mpr (sub_le_sub_right before _)⟩
    rw [between_of_apart apart, ← segment_eq_uIcc]
    exact lineMap_mem_segment K _ _ share

private theorem between_mono (rises : a.value ≤ b.value) (le : x ≤ y) :
    between a b x ≤ between a b y := by
  rcases le_or_gt (b.time - a.time) Scalar.epsilon with close | apart
  · rw [between_of_close close, between_of_close close]
  · have span := Scalar.epsilon_pos.trans apart
    have slope := sub_nonneg.mpr rises
    rw [between_of_apart apart, between_of_apart apart, AffineMap.lineMap_apply_ring',
      AffineMap.lineMap_apply_ring']
    gcongr

end Between

/-- Whether a function gives the values of a curve, which is held at its ends and between them
straight from key to key where these are far enough apart. -/
structure Interpolates (c : Curve K) (first last : CurveKey K) (f : K → K) : Prop where
  sampled : ∀ x, c.sample x = .ok (f x)
  before : ∀ x ≤ first.time, f x = first.value
  behind : ∀ x, first.time < x → last.time ≤ x → f x = last.value
  inside : ∀ x, first.time < x → x < last.time → ∃ lower a b, Brackets c.keys x lower a b ∧
    f x ∈ Set.uIcc a.value b.value ∧ (Scalar.epsilon < b.time - a.time →
      f x = AffineMap.lineMap a.value b.value ((x - a.time) / (b.time - a.time)))
  rises : Rises CurveKey.value c.keys → Monotone f

section Values

variable {c : Curve K} {first last : CurveKey K} {f : K → K}

variable [IsStrictOrderedRing K]

theorem Brackets.values_le {x : K} {lower : Nat} {a b : CurveKey K}
    (bracket : Brackets c.keys x lower a b) (rises : Rises CurveKey.value c.keys) :
    a.value ≤ between a b x ∧ between a b x ≤ b.value := by
  have values := rises.le (Nat.le_succ _) bracket.first bracket.next
  have range := between_mem bracket.reached bracket.before.le
  rwa [Set.uIcc_of_le values, Set.mem_Icc] at range

/-- The values of a curve whose keys do not fall lie between those of its ends. -/
theorem value_mem_of_rises (sorted : c.Sorted) (head : c.keys.head? = some first)
    (tail : c.keys.getLast? = some last) (rises : Rises CurveKey.value c.keys)
    (sampled : ∀ x, c.sample x = .ok (f x)) (x : K) : first.value ≤ f x ∧ f x ≤ last.value := by
  have start := List.head?_eq_getElem? ▸ head
  have finish := List.getLast?_eq_getElem? ▸ tail
  have ends := rises.le (Nat.zero_le _) start finish
  rcases le_or_gt x first.time with before | behind
  · rw [value_eq sampled (sample_first head tail before)]
    exact ⟨le_rfl, ends⟩
  · rcases le_or_gt last.time x with past | inside
    · rw [value_eq sampled (sample_last head tail behind past)]
      exact ⟨ends, le_rfl⟩
    · obtain ⟨lower, a, b, bracket, own⟩ := sample_inside sorted head tail behind inside
      have within := (List.getElem?_eq_some_iff.mp bracket.next).1
      have low := rises.le (Nat.zero_le lower) start bracket.first
      have high := rises.le (by omega) bracket.next finish
      obtain ⟨above, below⟩ := bracket.values_le rises
      rw [value_eq sampled own]
      exact ⟨low.trans above, below.trans high⟩

/-- Where the values of the keys do not fall, those of the curve do not either. -/
theorem monotone_of_rises (sorted : c.Sorted) (head : c.keys.head? = some first)
    (tail : c.keys.getLast? = some last) (rises : Rises CurveKey.value c.keys)
    (sampled : ∀ x, c.sample x = .ok (f x)) : Monotone f := by
  intro x y le
  have range := value_mem_of_rises sorted head tail rises sampled
  rcases le_or_gt x first.time with before | behind
  · rw [value_eq sampled (sample_first head tail before)]
    exact (range y).1
  · rcases le_or_gt last.time y with past | inside
    · rw [value_eq sampled (sample_last head tail (behind.trans_le le) past)]
      exact (range x).2
    · obtain ⟨i, a, b, earlier, own⟩ := sample_inside sorted head tail behind (le.trans_lt inside)
      obtain ⟨j, a', b', later, own'⟩ := sample_inside sorted head tail (behind.trans_le le) inside
      rw [value_eq sampled own, value_eq sampled own']
      -- Either both lie in one bracket, or a key that is not after the later one parts them.
      have order : i ≤ j := (later.reached_iff i a earlier.first).mp (earlier.reached.trans le)
      rcases order.lt_or_eq with apart | rfl
      · have parted := rises.le apart earlier.next later.first
        exact (earlier.values_le rises).2.trans (parted.trans (later.values_le rises).1)
      · obtain rfl := Option.some.inj (earlier.first.symm.trans later.first)
        obtain rfl := Option.some.inj (earlier.next.symm.trans later.next)
        exact between_mono (rises.le (Nat.le_succ i) earlier.first earlier.next) le

private theorem exists_interpolates (sorted : c.Sorted) (head : c.keys.head? = some first)
    (tail : c.keys.getLast? = some last) : ∃ f, Interpolates c first last f := by
  have some (x : K) : ∃ value, c.sample x = .ok value :=
    sample_ok fun key start behind => (not_le.mp behind).le
  choose f sampled using some
  refine ⟨f, sampled, fun x before => value_eq sampled (sample_first head tail before),
    fun x behind past => value_eq sampled (sample_last head tail behind past),
    fun x behind before => ?_, fun rises => monotone_of_rises sorted head tail rises sampled⟩
  obtain ⟨lower, a, b, bracket, own⟩ := sample_inside sorted head tail behind before
  rw [value_eq sampled own]
  exact ⟨lower, a, b, bracket, between_mem bracket.reached bracket.before.le, between_of_apart⟩

end Values

/-- A sorted curve in single precision fails just where it has keys and the abscissa is no number;
where neither end holds it, both keys of its bracket exist. In exact arithmetic it is held at its
ends; between them it takes values between those of the bracket, on the line through both where they
are far enough apart; and it does not fall where the values of its keys do not. -/
theorem sorted_curves_interpolate [IsStrictOrderedRing K] :
    (∀ c : Curve Float32, c.Sorted → ∀ x,
      (∀ fault, c.sample x = .error fault ↔ c.keys ≠ [] ∧ x.isNaN = true ∧ fault = .noLowerKey) ∧
        ∀ first last, x.isNaN = false → c.keys.head? = some first → c.keys.getLast? = some last →
          ¬x ≤ first.time → ¬last.time ≤ x →
          0 < upperIndex c.keys x ∧ upperIndex c.keys x < c.keys.length) ∧
      ∀ c : Curve K, c.Sorted → ∀ first last, c.keys.head? = some first →
        c.keys.getLast? = some last →
        ∃ f, Interpolates c first last f := by
  refine ⟨fun c sorted x => ⟨sample_eq_error_iff sorted x, ?_⟩, ?_⟩
  · intro first last number head tail behind before
    exact upperIndex_mem sorted number head tail behind before
  · intro c sorted first last head tail
    exact exists_interpolates sorted head tail

/-- A curve that jumps halfway, from one to two. -/
theorem sorted_curves_interpolate_stepped :
    (⟨[⟨1, 2⟩], .particle⟩ : Curve Float32).sample Float32.nan = .error .noLowerKey ∧
      ∃ f : ℚ → ℚ, Monotone f ∧ f (1 / 4) = 1 / 2 ∧ f (1 / 2) = 2 := by
  obtain ⟨single, exact⟩ := @sorted_curves_interpolate ℚ _ _ _ _ _
  obtain ⟨faults, -⟩ :=
    single ⟨[⟨1, 2⟩], .particle⟩ ⟨by decide +kernel, by decide +kernel⟩ Float32.nan
  obtain ⟨f, curve⟩ := exact ⟨[⟨0, 0⟩, ⟨1 / 2, 1⟩, ⟨1 / 2, 2⟩, ⟨1, 5⟩], .particle⟩
    ⟨by decide +kernel, by decide +kernel⟩ _ _ rfl rfl
  refine ⟨(faults _).mpr ⟨List.cons_ne_nil _ _, rfl, rfl⟩, f,
    curve.rises ⟨by decide +kernel, by decide +kernel⟩, ?_, ?_⟩
  · exact value_eq curve.sampled (by decide +kernel)
  · exact value_eq curve.sampled (by decide +kernel)

section Keys

variable {c : Curve K} {i : Nat} {key next : CurveKey K}

omit [Field K] [LinearOrder K] [FloorRing K] [Elementary K] in
theorem ends_eq {keys : List (CurveKey K)} (inhabited : 0 < keys.length) :
    keys.head? = some keys[0] ∧ keys.getLast? = some keys[keys.length - 1] := by
  rw [List.head?_eq_getElem?, List.getLast?_eq_getElem?]
  exact ⟨List.getElem?_eq_getElem inhabited,
    List.getElem?_eq_getElem (Nat.sub_one_lt_of_lt inhabited)⟩

private theorem between_first (apart : Scalar.epsilon < next.time - key.time) :
    between key next key.time = key.value := by
  rw [between_of_apart apart, sub_self, zero_div, AffineMap.lineMap_apply_zero]

/-- At the time of a key that is neither the first nor the last,
the bracket is that key with the next. -/
theorem sample_at_inner (increasing : c.keys.Pairwise fun a b => a.time < b.time)
    (found : c.keys[i]? = some key) (inner : 0 < i) (behind : c.keys[i + 1]? = some next) :
    c.sample key.time = .ok (between key next key.time) := by
  obtain ⟨within, rfl⟩ := List.getElem?_eq_some_iff.mp found
  obtain ⟨room, rfl⟩ := List.getElem?_eq_some_iff.mp behind
  have ordered := List.pairwise_iff_getElem.mp increasing
  have sorted : c.Sorted := ⟨fun _ _ => le_rfl, increasing.imp le_of_lt⟩
  obtain ⟨head, tail⟩ := ends_eq (Nat.zero_lt_of_lt within)
  obtain ⟨lower, a, b, bracket, sampled⟩ :=
    sample_inside sorted head tail (ordered 0 i (by omega) within inner)
      (ordered i _ within (by omega) (by omega))
  have own : i = lower := by
    have reached := (bracket.reached_iff i _ found).mp le_rfl
    rcases reached.lt_or_eq with less | same
    · obtain ⟨there, at_lower⟩ := List.getElem?_eq_some_iff.mp bracket.first
      exact absurd (at_lower ▸ ordered i lower within there less) (not_lt.mpr bracket.reached)
    · exact same
  subst own
  obtain rfl := Option.some.inj (found.symm.trans bracket.first)
  obtain rfl := Option.some.inj (behind.symm.trans bracket.next)
  exact sampled

/-- Where the times increase, a curve passes through its first key, its last key and every
other key that is far enough before the next; at a key that is too close before the next
it already has the value of the next. -/
theorem sample_at_key (increasing : c.keys.Pairwise fun a b => a.time < b.time)
    (found : c.keys[i]? = some key) :
    (i = 0 ∨ (∀ next, c.keys[i + 1]? = some next → Scalar.epsilon < next.time - key.time) →
      c.sample key.time = .ok key.value) ∧
      ∀ next, 0 < i → c.keys[i + 1]? = some next → next.time - key.time ≤ Scalar.epsilon →
        c.sample key.time = .ok next.value := by
  obtain ⟨within, rfl⟩ := List.getElem?_eq_some_iff.mp found
  have ordered := List.pairwise_iff_getElem.mp increasing
  obtain ⟨head, tail⟩ := ends_eq (Nat.zero_lt_of_lt within)
  constructor
  · intro clear
    rcases Nat.eq_zero_or_pos i with rfl | inner
    · exact sample_first head tail le_rfl
    · rcases Nat.lt_or_ge (i + 1) c.keys.length with room | last
      · have behind : c.keys[i + 1]? = some c.keys[i + 1] := List.getElem?_eq_getElem room
        rw [sample_at_inner increasing found inner behind,
          between_first (clear.resolve_left inner.ne' _ behind)]
      · obtain rfl : i = c.keys.length - 1 := by omega
        exact sample_last head tail (ordered 0 _ (by omega) within inner) le_rfl
  · intro next inner behind close
    rw [sample_at_inner increasing found inner behind, between_of_close close]

/-- The second of four keys that are a quarter apart. -/
theorem sample_at_key_quarter :
    (⟨[⟨0, 7⟩, ⟨1 / 4, 3⟩, ⟨1 / 2, 5⟩, ⟨3 / 4, 1⟩], .particle⟩ : Curve ℚ).sample (1 / 4) =
      .ok 3 := by
  obtain ⟨through, -⟩ := @sample_at_key ℚ _ _ _ _
    ⟨[⟨0, 7⟩, ⟨1 / 4, 3⟩, ⟨1 / 2, 5⟩, ⟨3 / 4, 1⟩], .particle⟩ 1 ⟨1 / 4, 3⟩ (by decide +kernel) rfl
  apply through
  right
  rintro next behind
  cases behind
  decide +kernel

/-- Four keys, the inner two of them as close together as singles can be there. -/
def crowded : Curve ℚ := ⟨[⟨0, 0⟩, ⟨1 / 2, 1⟩, ⟨1 / 2 + 1 / 2 ^ 24, 5⟩, ⟨1, 0⟩], .particle⟩

/-- The second key is passed over. -/
theorem crowded_misses_key :
    crowded.keys.Pairwise (fun a b => a.time < b.time) ∧ crowded.keys[1]? = some ⟨1 / 2, 1⟩ ∧
      crowded.sample (1 / 2) = .ok 5 ∧ ¬∀ key ∈ crowded.keys,
      crowded.sample key.time = .ok key.value := by
  decide +kernel

end Keys

end ParticleSystem.Curve
