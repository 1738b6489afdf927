import ParticleSystem.Proofs.Config.Reading
import ParticleSystem.Proofs.Distribution.Curve
import ParticleSystem.Proofs.Emitter.Progress
import ParticleSystem.Proofs.Json.Documents

/-!
Running a setup that a text describes. All shares that drive its curves are
numbers at the start of the loop, except in a loop of no ticks that are infinitely
long: there zero is multiplied by infinity.
-/

namespace ParticleSystem

namespace Config

open Rounding (isZero)

variable {config : Config Float32}

/-- The length of a loop is a number, but for no ticks of infinite length. -/
theorem isNaN_duration (ticks : 0 < config.tickTime) :
    config.duration.isNaN = true ↔ config.ticks = 0 ∧ config.tickTime.isInf = true := by
  have long := Single.isZero_of_pos ticks
  have number := (Single.isNaN_of_lt ticks).2
  change (Float32.ofNat config.ticks.toNat * config.tickTime).isNaN = true ↔ _
  rw [Single.isNaN_mul, Single.isNaN_ofNat, number, long]
  by_cases none : config.ticks = 0
  · have zero : isZero (Single.unpack (Float32.ofNat 0)) = true := by rfl
    simp [none, zero]
  · have some : 0 < config.ticks.toNat := by
      rw [Nat.pos_iff_ne_zero]
      exact fun same => none (UInt32.toNat_inj.mp same)
    simp [none, Single.isZero_ofNat some]

private theorem of_faults {fault : CurveFault} (lives : 0 < config.lifetime)
    (timed : ∀ curve ∈ config.distributions.curves, curve.Timed)
    (faults : config.distributions.Faults ⟨0, config.duration⟩ config.seedling fault) :
    fault = .noLowerKey ∧ config.duration.isNaN = true ∧
      ∃ curve ∈ config.distributions.curves, curve.axis = .emitter ∧ curve.keys ≠ [] := by
  obtain ⟨curve, member, failed⟩ := faults
  cases number : (curve.axis.share ⟨0, config.duration⟩ config.seedling).isNaN with
  | false =>
    obtain ⟨value, done⟩ := Curve.sample_ok (c := curve) (fun first head behind =>
      Single.le_total number (timed curve member first (List.mem_of_head? head)) behind)
    rw [done] at failed
    cases failed
  | true =>
    have apart (key : CurveKey Float32) :
        ¬curve.axis.share ⟨0, config.duration⟩ config.seedling ≤ key.time ∧
          ¬key.time ≤ curve.axis.share ⟨0, config.duration⟩ config.seedling := by
      constructor
      · intro below
        rw [(Single.isNaN_of_le below).1] at number
        cases number
      · intro below
        rw [(Single.isNaN_of_le below).2] at number
        cases number
    have keys : curve.keys ≠ [] := by
      intro none
      simp [Curve.sample, none] at failed
    rw [Curve.sample_incomparable keys fun key _ => apart key] at failed
    cases failed
    cases axis : curve.axis with
    | particle =>
      rw [axis] at number
      have own : config.seedling.lifeShare.isNaN = false := Single.isNaN_lifeShare lives rfl
      cases number.symm.trans own
    | emitter =>
      rw [axis] at number
      exact ⟨rfl, (Single.isNaN_share config.duration).symm.trans number, curve, member, axis, keys⟩

end Config

namespace Emitter

/-- A setup that a text describes runs to its end, and no count in it passes the numbers of its
particles and ticks; the only fault is that of a curve over a loop of no ticks that are infinitely
long, which has no value for the first particle. -/
theorem run_ofText {text : String} {config : Config Float32}
    (accepted : Config.ofText text = .ok config) :
    (∃ summary after, run (ofConfig config : Emitter Float32 UInt8) = .ok summary after ∧
      summary.ticks = config.ticks.toNat ∧ summary.spawned = config.particleCount.toNat ∧
      after.spawned = config.particleCount ∧ summary.alive + summary.expired = summary.spawned ∧
      summary.collisions ≤ summary.ticks * summary.spawned ∧
      (∀ slot ∈ after.places, slot < summary.spawned) ∧
      (∀ i stats, after.stats? i = some stats → stats.bounces.toNat ≤ summary.ticks) ∧
      ∃ burst reports,
        Action.performAll (.replicate summary.spawned .spawn) (ofConfig config) = .ok [] burst ∧
        Action.performAll (.replicate summary.ticks (.tick config.tickTime)) burst =
          .ok reports after ∧
        ∀ report ∈ reports, report.collisions ≤ summary.spawned ∧
          report.expired ≤ summary.spawned) ∨
    config.ticks = 0 ∧ config.tickTime.isInf = true ∧ config.particleCount ≠ 0 ∧
      (∃ curve ∈ config.distributions.curves, curve.axis = .emitter ∧ curve.keys ≠ []) ∧
      ∃ left, run (ofConfig config : Emitter Float32 UInt8) =
        .error (.stack (.curve .noLowerKey)) left := by
  obtain ⟨positive, lives, timed⟩ := Config.of_ofText accepted
  rcases run_cases (β := UInt8) config with
    ⟨summary, after, done, ready, count, burst, reports, spawned, ticked, bounds⟩ |
    ⟨some, fault, left, failed, faults⟩
  · refine .inl ⟨summary, after, done, ?_⟩
    obtain ⟨burst', reports', spawned', ticked', length, ticks, newborn, collisions, -, -⟩ :=
      run_ok done
    cases spawned.symm.trans spawned'
    cases ticked.symm.trans ticked'
    have start : Call.performAll [] (ofConfig config : Emitter Float32 UInt8) =
        .ok [] (ofConfig config) := rfl
    have balance := (conserved_ofCalls start).run done
    have slots := ready.slots_le
    change summary.ticks = config.ticks.toNat at ticks
    change summary.spawned = config.particleCount.toNat at newborn
    rw [count] at slots
    refine ⟨ticks, newborn, count, balance.trans (Nat.zero_add _), ?_, ?_, ?_, burst, reports, ?_⟩
    · have total := List.sum_le_card_nsmul (reports.map (·.collisions)) config.particleCount.toNat
        (List.forall_mem_map.mpr fun report member => (bounds report member).1)
      rw [collisions, newborn]
      rwa [List.length_map, length, smul_eq_mul] at total
    · intro slot member
      rw [newborn]
      exact (ready.consistent.places_lt slot member).trans_le slots
    · intro i stats found
      obtain ⟨live, there, record⟩ := Option.bind_eq_some_iff.mp found
      have member : live.slot ∈ after.places :=
        List.mem_map_of_mem (Array.mem_toList_iff.mpr (Array.mem_of_getElem? there))
      rw [ticks]
      exact ready.bounces_le live.slot member stats record
    · rw [newborn, ticks]
      exact ⟨spawned, ticked, bounds⟩
  · obtain ⟨rfl, none, curve⟩ := Config.of_faults lives timed faults
    obtain ⟨ticks, infinite⟩ := (Config.isNaN_duration positive).mp none
    exact .inr ⟨ticks, infinite, some, curve, left, failed⟩

/-- A setup with ticks of infinite length, and a curve over its loop with its keys out of order. -/
def endless (ticks : Nat) : Json :=
  let key (time value : Nat) : Json := .object [("time", .ofNat time), ("value", .ofNat value)]
  let curve : Json := .object [("keys", .array [key 1 2, key 0 3]),
    ("tick_mode", .string "Emitter")]
  let strength : Json := .object [("value", .ofNat 1), ("dist", DistributionRef.toJson ⟨.curve, 0⟩)]
  let sphere : Json := .object [("kind", .string "Sphere"), ("strength", strength)]
  .object
    [("tick_time", .number ⟨false, Digit.ofNat 1, [], some ⟨false, Digit.ofNat 39⟩⟩),
      ("ticks", .ofNat ticks), ("particle_count", .ofNat 2),
      ("distributions", .object [("curves", .array [curve])]),
      ("modules", .object [("spawn", .array [sphere])])]

/-- The reader gives the setup back from its text, so that only its fields are left to read. -/
theorem ofText?_endless (ticks : Nat) :
    Json.ofText? (endless ticks).compact = some (endless ticks) := by
  have large : Numeral.WellFormed ⟨false, Digit.ofNat 1, [], some ⟨false, Digit.ofNat 39⟩⟩ := by
    refine ⟨Digit.ofNat_ne_nil 1, fun lead => absurd lead (Digit.head?_ofNat Nat.one_pos),
      fun e found => ?_⟩
    obtain rfl := Option.some.inj found
    exact Digit.ofNat_ne_nil 39
  apply Json.ofText?_write Json.Style.blank_compact
  simp [endless, DistributionRef.toJson, Json.ofNat, Json.legible, Json.legibleItems,
    Json.legibleMembers, Numeral.wellFormed_ofNat, large]

/-- With a tick in the loop its share is a number, and the run comes to its end. -/
theorem run_ofText_endless :
    ∃ config summary, ∃ after : Emitter Float32 UInt8,
      Config.ofText (endless 3).compact = .ok config ∧
      config.tickTime.isInf = true ∧ run (ofConfig config) = .ok summary after ∧ summary.ticks = 3 ∧
      summary.alive + summary.expired = 2 := by
  have described : (match Config.ofText (endless 3).compact with
    | .ok config => config.tickTime.isInf && config.ticks == 3 && config.particleCount == 2
    | .error _ => false) = true := by
    rw [Config.ofText, Config.read, ofText?_endless]
    decide +kernel
  cases accepted : Config.ofText (endless 3).compact with
  | error fault =>
    rw [accepted] at described
    cases described
  | ok config =>
    rw [accepted] at described
    simp only [Bool.and_eq_true, beq_iff_eq] at described
    obtain ⟨⟨infinite, ticks⟩, count⟩ := described
    rcases run_ofText accepted with ⟨summary, after, done, all, newborn, -, balance, -⟩ | ⟨none, -⟩
    · rw [newborn, count] at balance
      exact ⟨config, summary, after, rfl, infinite, done, by rw [all, ticks]; rfl, balance⟩
    · rw [ticks] at none
      cases none

/-- Without a tick in the loop its length is no number, and the first particle has no lower key. -/
theorem run_endless_fault :
    ∃ config, ∃ left : Emitter Float32 UInt8, Config.ofText (endless 0).compact = .ok config ∧
      run (ofConfig config) = .error (.stack (.curve .noLowerKey)) left := by
  have outcome : (match Config.ofText (endless 0).compact with
    | .ok config =>
      match run (ofConfig config : Emitter Float32 UInt8) with
      | .error fault _ => some fault
      | _ => none
    | .error _ => none) = some (.stack (.curve .noLowerKey)) := by
    rw [Config.ofText, Config.read, ofText?_endless]
    decide +kernel
  cases accepted : Config.ofText (endless 0).compact with
  | error fault =>
    rw [accepted] at outcome
    cases outcome
  | ok config =>
    simp only [accepted] at outcome
    split at outcome
    · rename_i fault left ran
      cases outcome
      exact ⟨config, left, rfl, ran⟩
    · cases outcome

end Emitter

end ParticleSystem
