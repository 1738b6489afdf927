import ParticleSystem.Noise.Field
import ParticleSystem.Proofs.Noise.Lattice
import ParticleSystem.Proofs.Scalar.Value

/-!
The hash of lattice points. Every step of the scrambling can be taken back, and so can the way from
a lattice point to its three words: the words lose the difference between the coordinates −1 and 0,
but the coordinates of a lattice point agree modulo six, and no lattice point has three that are −1.
-/

namespace ParticleSystem.LatticeHash

open Simplex (latticePoint lattice gridPoint_eq)

/-- A step of the generator can be taken back, its multiplier being odd. -/
def seedEquiv : UInt32 ≃ UInt32 where
  toFun := seed
  invFun w := (w - 1013904223) * 4276115653
  left_inv w := by
    have unit : (1664525 * 4276115653 : UInt32) = 1 := by decide
    simp only [seed, UInt32.add_sub_cancel, UInt32.mul_assoc, unit, UInt32.mul_one]
  right_inv w := by
    have unit : (4276115653 * 1664525 : UInt32) = 1 := by decide
    simp only [seed, UInt32.mul_assoc, unit, UInt32.mul_one, UInt32.sub_add_cancel]

/-- A round can be taken back, the last word first. -/
def roundEquiv : Vec3 UInt32 ≃ Vec3 UInt32 where
  toFun := round
  invFun v :=
    let z := v.z - v.x * v.y
    let y := v.y - z * v.x
    ⟨v.x - y * z, y, z⟩
  left_inv v := by simp only [round, UInt32.add_sub_cancel]
  right_inv v := by simp only [round, UInt32.sub_add_cancel]

def mapEquiv {β : Type} (e : β ≃ β) : Vec3 β ≃ Vec3 β where
  toFun := Vec3.map e
  invFun := Vec3.map e.symm
  left_inv v := by simp only [Vec3.map, e.symm_apply_apply]
  right_inv v := by simp only [Vec3.map, e.apply_symm_apply]

theorem mix_bijective : Function.Bijective mix :=
  (((mapEquiv seedEquiv).trans roundEquiv).trans roundEquiv).bijective

/-- A coordinate of a lattice point, in sixths. -/
def sixths (k : Fin 3 → ℤ) (i : Fin 3) : ℤ := 6 * k i - ∑ j, k j

/-- What is left of a whole number and a half when the fraction is dropped. -/
def chop (n : ℤ) : ℤ := if 0 ≤ n then n else n + 1

private theorem eq_or_of_chop {m n : ℤ} (same : chop m = chop n) :
    m = n ∨ m = -1 ∧ n = 0 ∨ m = 0 ∧ n = -1 := by
  unfold chop at same
  split at same <;> split at same <;> omega

/-- The coordinates of a lattice point can be told from what is left of them. -/
theorem eq_of_chop_sixths {k l : Fin 3 → ℤ} (same : ∀ i, chop (sixths k i) = chop (sixths l i)) :
    k = l := by
  have either i := eq_or_of_chop (same i)
  simp only [sixths] at either
  -- one coordinate at −1 of one point and at 0 of the other would put all three there
  have sum : ∑ j, k j = ∑ j, l j := by
    have x := either 0
    have y := either 1
    have z := either 2
    rw [Fin.sum_univ_three, Fin.sum_univ_three] at *
    omega
  funext i
  have own := either i
  rw [sum] at own
  omega

section Words

variable {α : Type} [Scalar α]

/-- What is hashed of a corner: its coordinates in sixths, and a half. -/
def halves (corner : Vec3 α) : Vec3 α := corner * (6 : α) + .splat 0.5

def wholeParts (p : Vec3 α) : Vec3 ℤ :=
  ⟨Scalar.truncate p.x, Scalar.truncate p.y, Scalar.truncate p.z⟩

def state (p : Vec3 α) : Vec3 UInt32 := mix ⟨word p.x, word p.y, word p.z⟩

private theorem cornerWords_eq (corner : Vec3 α) :
    Noise.cornerWords corner = (state (halves corner)).map (fun w : UInt32 => w >>> 16) := rfl

/-- Within 32 signed bits a whole part has a word of its own. -/
private theorem truncate_eq_of_word_eq {a b : α}
    (left : -2 ^ 31 ≤ Scalar.truncate a ∧ Scalar.truncate a < 2 ^ 31)
    (right : -2 ^ 31 ≤ Scalar.truncate b ∧ Scalar.truncate b < 2 ^ 31) (same : word a = word b) :
    Scalar.truncate a = Scalar.truncate b := by
  have equal := congrArg UInt32.toNat same
  simp only [word, UInt32.ofInt, UInt32.toNat_ofNat'] at equal
  omega

variable {K : Type} [Field K] [LinearOrder K] [FloorRing K] [Elementary K]

/-- Whether the coordinates, in sixths, are within 32 signed bits. -/
def Within (p : Vec3 K) : Prop :=
  ∀ a ∈ p.toList, ((-2 ^ 31 : ℤ) : K) ≤ a * (6 : ℤ) ∧ a * (6 : ℤ) ≤ (2 ^ 31 - 1 : ℤ)

theorem scaled_latticePoint (k : Fin 3 → ℤ) :
    (latticePoint K k).x * 6 = sixths k 0 ∧ (latticePoint K k).y * 6 = sixths k 1 ∧
      (latticePoint K k).z * 6 = sixths k 2 := by
  simp only [latticePoint, gridPoint_eq, sixths]
  push_cast
  refine ⟨?_, ?_, ?_⟩ <;> ring

theorem halves_latticePoint (k : Fin 3 → ℤ) :
    halves (latticePoint K k) = ⟨sixths k 0 + 1 / 2, sixths k 1 + 1 / 2, sixths k 2 + 1 / 2⟩ := by
  obtain ⟨x, y, z⟩ := scaled_latticePoint (K := K) k
  have half : ((5 : ℕ) : K) / 10 ^ 1 = 1 / 2 := by norm_num
  have own (p : Vec3 K) : halves p = ⟨p.x * 6 + (5 : ℕ) / 10 ^ 1, p.y * 6 + (5 : ℕ) / 10 ^ 1,
      p.z * 6 + (5 : ℕ) / 10 ^ 1⟩ := rfl
  rw [own, x, y, z, half]

variable [IsStrictOrderedRing K]

theorem truncate_half (n : ℤ) : Scalar.truncate (n + 1 / 2 : K) = chop n := by
  have half : (0 : K) ≤ 1 / 2 ∧ (1 / 2 : K) < 1 := by norm_num
  change (if (0 : K) ≤ n + 1 / 2 then ⌊(n + 1 / 2 : K)⌋ else ⌈(n + 1 / 2 : K)⌉) = chop n
  have down : ⌊(n + 1 / 2 : K)⌋ = n := by
    rw [Int.floor_intCast_add, Int.floor_eq_zero_iff.mpr half, add_zero]
  have up : ⌈(n + 1 / 2 : K)⌉ = n + 1 := by
    have one : ⌈(1 / 2 : K)⌉ = 1 := by
      rw [Int.ceil_eq_iff]
      norm_num
    rw [Int.ceil_intCast_add, one]
  have side : (0 : K) ≤ n + 1 / 2 ↔ 0 ≤ n := by
    rw [← Int.floor_nonneg, down]
  rw [down, up, chop]
  simp only [side]

private theorem wholeParts_halves (k : Fin 3 → ℤ) :
    wholeParts (halves (latticePoint K k)) = ⟨chop (sixths k 0), chop (sixths k 1),
      chop (sixths k 2)⟩ := by
  rw [halves_latticePoint]
  simp only [wholeParts, truncate_half]

theorem wholeParts_halves_injOn :
    Set.InjOn (fun p : Vec3 K => wholeParts (halves p)) (lattice K) := by
  rintro _ ⟨k, rfl⟩ _ ⟨l, rfl⟩ same
  simp only [wholeParts_halves, Vec3.mk.injEq] at same
  obtain ⟨x, y, z⟩ := same
  rw [eq_of_chop_sixths (Fin.forall_fin_succ.mpr ⟨x, Fin.forall_fin_two.mpr ⟨y, z⟩⟩)]

theorem chop_within {k : Fin 3 → ℤ} (within : Within (latticePoint K k)) (i : Fin 3) :
    -2 ^ 31 ≤ chop (sixths k i) ∧ chop (sixths k i) < 2 ^ 31 := by
  have coordinate : -2 ^ 31 ≤ sixths k i ∧ sixths k i ≤ 2 ^ 31 - 1 := by
    obtain ⟨x, y, z⟩ := scaled_latticePoint (K := K) k
    have bounds : ∀ j, ((-2 ^ 31 : ℤ) : K) ≤ sixths k j ∧ (sixths k j : K) ≤ (2 ^ 31 - 1 : ℤ) := by
      simp only [Within, Vec3.toList, List.forall_mem_cons, Int.cast_ofNat, x, y, z] at within
      exact Fin.forall_fin_succ.mpr ⟨within.1, Fin.forall_fin_two.mpr ⟨within.2.1, within.2.2.1⟩⟩
    exact_mod_cast bounds i
  unfold chop
  split <;> omega

theorem state_halves_injOn :
    Set.InjOn (fun p : Vec3 K => state (halves p)) {p ∈ lattice K | Within p} := by
  rintro _ ⟨⟨k, rfl⟩, first⟩ _ ⟨⟨l, rfl⟩, second⟩ same
  have words := mix_bijective.injective same
  simp only [Vec3.mk.injEq, halves_latticePoint] at words
  obtain ⟨x, y, z⟩ := words
  have chopped (i : Fin 3) (own : word (sixths k i + 1 / 2 : K) = word (sixths l i + 1 / 2 : K)) :
      chop (sixths k i) = chop (sixths l i) := by
    have left := chop_within first i
    have right := chop_within second i
    rw [← truncate_half (K := K)] at left right ⊢
    rw [← truncate_half (K := K) (sixths l i)]
    exact truncate_eq_of_word_eq left right own
  rw [eq_of_chop_sixths (Fin.forall_fin_succ.mpr ⟨chopped 0 x,
    Fin.forall_fin_two.mpr ⟨chopped 1 y, chopped 2 z⟩⟩)]

end Words

/-- Whether a single stands for a word of 16 bits. -/
def Holds (a : Float32) (w : UInt32) : Prop :=
  w.toNat ≤ 65535 ∧ a.isFinite = true ∧ Single.value a = w.toNat

theorem holds_high (w : UInt32) : Holds (Scalar.ofNat (w >>> 16).toNat) (w >>> 16) := by
  have short : (w >>> 16).toNat < 2 ^ 16 := by
    rw [UInt32.toNat_shiftRight, Nat.shiftRight_eq_div_pow]
    exact Nat.div_lt_of_lt_mul w.toNat_lt
  exact ⟨by omega, Single.value_ofNat (by omega)⟩

private theorem holds_sample (p : Vec3 Float32) :
    Holds (sample p).x (ofPoint p).x ∧ Holds (sample p).y (ofPoint p).y ∧
    Holds (sample p).z (ofPoint p).z :=
  ⟨holds_high _, holds_high _, holds_high _⟩

/-- The scrambling permutes the triples of words; the words of a corner are the upper halves of its
scrambled words, and different points of the lattice keep different whole parts and different
scrambled words; and the components of a hash are words of 16 bits, as they are. -/
theorem hash_separates (K : Type) [Field K] [LinearOrder K] [FloorRing K] [Elementary K]
    [IsStrictOrderedRing K] :
    Function.Bijective mix ∧
    (∀ p : Vec3 K, Noise.cornerWords p = (state (halves p)).map (fun w : UInt32 => w >>> 16)) ∧
    (∀ p ∈ lattice K, ∀ q ∈ lattice K, Within p → Within q → p ≠ q →
      wholeParts (halves p) ≠ wholeParts (halves q) ∧ state (halves p) ≠ state (halves q)) ∧
    ∀ p : Vec3 Float32, Holds (sample p).x (ofPoint p).x ∧ Holds (sample p).y (ofPoint p).y ∧
      Holds (sample p).z (ofPoint p).z := by
  refine ⟨mix_bijective, cornerWords_eq, ?_, holds_sample⟩
  intro p left q right first second different
  exact ⟨wholeParts_halves_injOn.ne left right different,
    state_halves_injOn.ne ⟨left, first⟩ ⟨right, second⟩ different⟩

/-- Two neighbours with the sixths 0, 0, 0 and 5, −1, −1, whose whole
parts are the same in two components. -/
theorem hash_separates_neighbours :
    wholeParts (halves (latticePoint ℚ 0)) = ⟨0, 0, 0⟩ ∧
      wholeParts (halves (latticePoint ℚ (Pi.single 0 1))) = ⟨5, 0, 0⟩ ∧
      state (halves (latticePoint ℚ 0)) ≠ state (halves (latticePoint ℚ (Pi.single 0 1))) := by
  refine ⟨by decide +kernel, by decide +kernel, ?_⟩
  have within : Within (latticePoint ℚ 0) ∧ Within (latticePoint ℚ (Pi.single 0 1)) := by
    unfold Within
    decide +kernel
  exact ((hash_separates ℚ).2.2.1 _ ⟨0, rfl⟩ _ ⟨Pi.single 0 1, rfl⟩ within.1
    within.2 (by decide +kernel)).2

end ParticleSystem.LatticeHash
