import ParticleSystem.Proofs.Emitter.Bookkeeping
import Mathlib.Data.List.Forall2

namespace ParticleSystem

namespace Emitter

variable {α β : Type} [Layout α β]

/-- The contacts in a record, none where there is no record. -/
def bouncesOf : Option (ParticleStats α) → Nat
  | none => 0
  | some stats => stats.bounces.toNat

/-- Whether there is a record and it counts the contacts that were noted. -/
def Tells (record : Option (ParticleStats α)) (marks : List Bool) : Prop :=
  ∃ stats, record = some stats ∧ stats.bounces.toNat = marks.count true

theorem Tells.bounces_eq {record : Option (ParticleStats α)} {marks : List Bool}
    (tells : Tells record marks) : bouncesOf record = marks.count true := by
  obtain ⟨stats, rfl, count⟩ := tells
  exact count

section Spawn

variable [Scalar α] {e after : Emitter α β}

theorem Consistent.stats?_spawn (consistent : e.Consistent) (effect : SpawnEffect e after)
    (i : Nat) :
    after.stats? i =
      if i = e.particles.size then some ⟨e.time, 0, 0, e.spawned⟩ else e.stats? i := by
  have length := length_places e
  rcases Nat.lt_trichotomy i e.particles.size with old | new | outside
  · rw [← length] at old
    have found : e.places[i]? = some e.places[i] := List.getElem?_eq_getElem old
    have there : after.places[i]? = some e.places[i] := by
      rw [effect.places_eq, List.getElem?_append_left old, found]
    rw [if_neg (by omega), stats?_of_place there, stats?_of_place found,
      consistent.record_spawn effect (List.getElem_mem old)]
  · have there : after.places[i]? = some (sideSet e.pool).next := by
      rw [effect.places_eq, new, ← length, List.getElem?_concat_length]
    rw [if_pos new, stats?_of_place there, effect.records_eq, Function.update_self]
  · have size := effect.size_eq
    rw [if_neg (by omega), stats?, stats?, Array.getElem?_eq_none (by omega),
      Array.getElem?_eq_none (by omega)]
    rfl

private theorem spawn_ok [LawfulLayout α β] {count : Nat} (consistent : e.Consistent)
    (done : Emitter.spawn count e = .ok () after) :
    after.particles.size = e.particles.size + count ∧
      (∀ i < e.particles.size, after.stats? i = e.stats? i) ∧
      ∀ k < count, ∃ serial : UInt32, after.stats? (e.particles.size + k) =
        some ⟨e.time, 0, 0, serial⟩ ∧
        serial.toNat = e.spawned.toNat + k := by
  induction count generalizing e with
  | zero =>
    cases done
    exact ⟨rfl, fun i _ => rfl, fun k none => absurd none (Nat.not_lt_zero k)⟩
  | succ count ih =>
    obtain ⟨_, middle, first, done⟩ := bind_eq_ok done
    have effect := spawnOne_ok consistent.side first
    have spawned := effect.spawned_eq
    have grown := effect.size_eq
    obtain ⟨size, kept, fresh⟩ := ih (consistent.spawn effect) done
    refine ⟨by omega, ?_, ?_⟩
    · intro i old
      rw [kept i (by omega), consistent.stats?_spawn effect, if_neg (by omega)]
    · intro k within
      cases k with
      | zero =>
        refine ⟨e.spawned, ?_, rfl⟩
        rw [kept _ (by omega), consistent.stats?_spawn effect, if_pos (Nat.add_zero _)]
      | succ k =>
        obtain ⟨serial, found, ordinal⟩ := fresh k (by omega)
        have place : e.particles.size + (k + 1) = middle.particles.size + k := by omega
        refine ⟨serial, ?_, by omega⟩
        rw [place, found, effect.time_eq]

end Spawn

private def marked (lives : List (LiveParticle α)) (earlier : List (List Bool)) :
    List (List Bool) :=
  earlier.zipWith (fun marks live => marks ++ [live.particle.collided]) lives

private theorem told_marked {before after : Pool β} {lives : List (LiveParticle α)}
    {earlier : List (List Bool)}
    (told : List.Forall₂ (fun live marks => Tells (α := α) (recordAt before live.slot) marks)
      lives earlier)
    (tallied : ∀ live ∈ lives, ∀ old : ParticleStats α, recordAt before live.slot = some old →
      ∃ new, recordAt after live.slot = some new ∧
        ParticleStats.Tallied live.particle.collided old new) :
    List.Forall₂ (fun live marks => Tells (α := α) (recordAt after live.slot) marks) lives
      (marked lives earlier) := by
  induction told with
  | nil => exact .nil
  | @cons live marks rest others tells _ ih =>
    obtain ⟨old, found, count⟩ := tells
    obtain ⟨new, now, tally⟩ := tallied live List.mem_cons_self old found
    refine .cons ⟨new, now, ?_⟩ (ih fun other member =>
      tallied other (List.mem_cons_of_mem live member))
    rw [tally.bounces_eq, count, List.count_append]
    cases live.particle.collided <;> rfl

private theorem sum_marked {lives : List (LiveParticle α)} {earlier : List (List Bool)}
    (length : lives.length = earlier.length) :
    ((marked lives earlier).map (List.count true)).sum =
      (earlier.map (List.count true)).sum + lives.countP (·.particle.collided) := by
  induction lives generalizing earlier with
  | nil =>
    cases earlier with
    | nil => rfl
    | cons marks others => cases length
  | cons live rest ih =>
    cases earlier with
    | nil => cases length
    | cons marks others =>
      have remaining := ih (Nat.succ.inj length)
      rw [marked] at remaining ⊢
      rw [List.zipWith_cons_cons, List.map_cons, List.sum_cons, remaining, List.map_cons,
        List.sum_cons, List.countP_cons, List.count_append]
      cases live.particle.collided <;> simp
      all_goals omega

private theorem sum_filter_partition {γ : Type} (keep : γ → Bool) (weight : γ → Nat) (l : List γ) :
    ((l.filter (!keep ·)).map weight).sum + ((l.filter keep).map weight).sum =
      (l.map weight).sum := by
  induction l with
  | nil => rfl
  | cons head rest ih =>
    rw [List.map_cons, List.sum_cons, ← ih, List.filter_cons, List.filter_cons]
    cases keep head <;> simp
    all_goals omega

/-- Whether the records and the reports of an emitter are those that its chronicle tells of. -/
structure Conserved (c : Chronicle α) (e : Emitter α β) : Prop where
  booked : Booked c e
  live : List.Forall₂ (fun slot marks => Tells (α := α) (recordAt e.pool slot) marks)
    e.places c.live
  gone : ∀ entry ∈ c.gone, Tells entry.2 entry.1
  expired_eq : (c.reports.map (·.expired)).sum = c.gone.length
  collisions_eq : (c.reports.map (·.collisions)).sum =
    (c.live.map (List.count true)).sum + (c.gone.map fun entry => entry.1.count true).sum
  spawned_eq : c.spawned = c.live.length + c.gone.length

variable {c : Chronicle α} {e after : Emitter α β}

theorem Conserved.size_add_gone (conserved : Conserved c e) :
    e.particles.size + c.gone.length = c.spawned := by
  rw [conserved.spawned_eq, ← conserved.live.length_eq, length_places]

theorem Conserved.stats?_tells (conserved : Conserved c e) {i : Nat} {marks : List Bool}
    (found : c.live[i]? = some marks) : Tells (e.stats? i) marks := by
  have length := conserved.live.length_eq
  obtain ⟨inside, rfl⟩ := List.getElem?_eq_some_iff.mp found
  rw [← length] at inside
  rw [stats?_of_place (List.getElem?_eq_getElem inside)]
  exact List.forall₂_iff_get.mp conserved.live |>.2 i inside _

private theorem Conserved.sum_bounces (conserved : Conserved c e) :
    ((List.range e.particles.size).map fun i => bouncesOf (e.stats? i)).sum =
      (c.live.map (List.count true)).sum := by
  refine congrArg List.sum (List.ext_getElem ?_ ?_)
  · rw [List.length_map, List.length_map, List.length_range, ← conserved.live.length_eq,
      length_places]
  · intro i _ inside
    rw [List.length_map] at inside
    rw [List.getElem_map, List.getElem_map, List.getElem_range]
    exact (conserved.stats?_tells (List.getElem?_eq_getElem inside)).bounces_eq

private theorem Conserved.sum_gone (conserved : Conserved c e) :
    (c.gone.map fun entry => bouncesOf entry.2).sum =
      (c.gone.map fun entry => entry.1.count true).sum :=
  congrArg List.sum (List.map_congr_left fun entry member =>
    (conserved.gone entry member).bounces_eq)

variable [Scalar α]

theorem Conserved.spawn [LawfulLayout α β] (conserved : Conserved c e)
    (done : spawnOne e = .ok () after) (booked : Booked (c.note e .spawn [] after) after) :
    Conserved (c.note e .spawn [] after) after := by
  have consistent := conserved.booked.consistent
  have effect := spawnOne_ok consistent.side done
  have spawned := conserved.spawned_eq
  refine ⟨booked, ?_, conserved.gone, ?_, ?_, ?_⟩
  · have kept : List.Forall₂ (fun slot marks => Tells (α := α) (recordAt after.pool slot) marks)
      e.places
        c.live := by
      refine List.forall₂_iff_zip.mpr ⟨conserved.live.length_eq, ?_⟩
      intro slot marks member
      rw [consistent.record_spawn effect (List.of_mem_zip member).1]
      exact List.forall₂_zip conserved.live member
    rw [effect.places_eq]
    refine List.rel_append kept (.cons ⟨⟨e.time, 0, 0, e.spawned⟩, ?_, rfl⟩ .nil)
    rw [effect.records_eq, Function.update_self]
  · rw [Chronicle.reports_note, List.append_nil]
    exact conserved.expired_eq
  · rw [Chronicle.reports_note, List.append_nil]
    simpa [Chronicle.note] using conserved.collisions_eq
  · simp only [Chronicle.note, List.length_append, List.length_singleton]
    omega

private theorem TickEffect.marks_eq {dt : α} {report : TickReport} {lives : List (LiveParticle α)}
    {ledger : Ledger β} (effect : TickEffect dt e after report lives ledger) :
    c.marks dt e = marked lives c.live := by
  have flags : (e.updated dt).map (·.collided) = lives.map (·.particle.collided) := by
    have same := congrArg (List.map Particle.collided) effect.moved_eq
    rw [List.map_map, List.map_map] at same
    exact same.symm
  rw [Chronicle.marks]
  calc c.live.zipWith (fun marks particle => marks ++ [particle.collided]) (e.updated dt)
      = c.live.zipWith (fun marks flag => marks ++ [flag]) ((e.updated dt).map (·.collided)) := by
        rw [List.zipWith_map_right]
    _ = c.live.zipWith (fun marks flag => marks ++ [flag]) (lives.map (·.particle.collided)) := by
      rw [flags]
    _ = marked lives c.live := List.zipWith_map_right

theorem Conserved.tick {dt : α} {report : TickReport} {lives : List (LiveParticle α)}
    {ledger : Ledger β} (conserved : Conserved c e)
    (effect : TickEffect dt e after report lives ledger)
    (booked : Booked (c.note e (.tick dt) [report] after) after) :
    Conserved (c.note e (.tick dt) [report] after) after := by
  have told : List.Forall₂ (fun live marks => Tells (α := α) (recordAt e.pool live.slot) marks)
    lives
      c.live := by
    have live := conserved.live
    rwa [← effect.places_eq, List.forall₂_map_left_iff] at live
  have now := told_marked told effect.tallied
  -- the particles after the updates with all their marks; the
  -- rest of the tick splits this list in two
  let entries := lives.zip (marked lives c.live)
  have firsts : entries.map Prod.fst = lives := List.map_fst_zip now.length_eq.le
  have seconds : entries.map Prod.snd = marked lives c.live := List.map_snd_zip now.length_eq.ge
  have tells (entry : LiveParticle α × List Bool) (member : entry ∈ entries) :
      Tells (α := α) (recordAt ledger.pool entry.1.slot) entry.2 := List.forall₂_zip now member
  have noted : c.note e (.tick dt) [report] after =
      { c with
        peak := max c.peak after.particles.size
        reports := c.reports ++ [report]
        live := (entries.filter (!·.1.particle.expired)).map (·.2)
        gone := c.gone ++ (entries.filter (·.1.particle.expired)).map fun entry =>
          (entry.2, recordAt ledger.pool entry.1.slot) } := by
    simp only [Chronicle.note, Chronicle.noteTick, effect.updateAll_eq, effect.marks_eq]
    rfl
  have places : after.places = (entries.filter (!·.1.particle.expired)).map (·.1.slot) := by
    rw [Emitter.places, effect.particles_eq, ← firsts, List.filter_map, List.map_map]
    rfl
  have expired : report.expired = (entries.filter (·.1.particle.expired)).length := by
    rw [effect.expired_eq, ← firsts, List.filter_map, List.length_map]
    rfl
  have contacts : (entries.map fun entry => entry.2.count true).sum =
      (c.live.map (List.count true)).sum + report.collisions := by
    rw [effect.collisions_eq, ← sum_marked told.length_eq, ← seconds, List.map_map]
    rfl
  have split :=
    sum_filter_partition (·.1.particle.expired) (fun entry => entry.2.count true) entries
  have length : entries.length = c.live.length := by
    rw [← told.length_eq, ← firsts, List.length_map]
  have parts := List.length_eq_length_filter_add (l := entries) (·.1.particle.expired)
  rw [noted] at booked ⊢
  refine ⟨booked, ?_, ?_, ?_, ?_, ?_⟩
  · rw [places, List.forall₂_map_left_iff, List.forall₂_map_right_iff, List.forall₂_same]
    intro entry member
    rw [effect.records_eq]
    exact tells entry (List.mem_of_mem_filter member)
  · intro entry member
    rcases List.mem_append.mp member with old | removed
    · exact conserved.gone entry old
    · obtain ⟨source, kept, rfl⟩ := List.mem_map.mp removed
      exact tells source (List.mem_of_mem_filter kept)
  · rw [List.map_append, List.sum_append, conserved.expired_eq, List.length_append,
      List.length_map, ← expired]
    simp
  · have earlier := conserved.collisions_eq
    simp only [List.map_append, List.sum_append, List.map_map, Function.comp_def,
      List.map_singleton, List.sum_singleton]
    omega
  · have earlier := conserved.spawned_eq
    simp only [List.length_append, List.length_map]
    omega

variable [LawfulLayout α β]

theorem Conserved.perform {action : Action α} {reports : List TickReport}
    (conserved : Conserved c e) (done : action.perform e = .ok reports after) :
    Conserved (c.note e action reports after) after := by
  have booked := conserved.booked.perform done
  have consistent := conserved.booked.consistent
  cases action with
  | spawn =>
    obtain ⟨spawned, rfl⟩ := Action.perform_spawn_ok done
    exact conserved.spawn spawned booked
  | tick dt =>
    obtain ⟨report, rfl, ticked⟩ := Action.perform_tick_ok done
    obtain ⟨lives, ledger, effect⟩ := tick_effect consistent.side consistent.places_nodup ticked
    exact conserved.tick effect booked
  | reload =>
    cases done
    refine ⟨booked, conserved.live, conserved.gone, ?_, ?_, conserved.spawned_eq⟩
    · rw [Chronicle.reports_note, List.append_nil]
      exact conserved.expired_eq
    · rw [Chronicle.reports_note, List.append_nil]
      exact conserved.collisions_eq

theorem conserved_follow {actions : List (Action α)} {reports : List TickReport}
    (conserved : Conserved c e) (performed : Action.performAll actions e = .ok reports after) :
    Conserved (c.follow actions e) after :=
  Chronicle.follow_induction (fun _ _ _ _ _ done conserved => conserved.perform done)
    conserved performed

theorem conserved_ofCalls {config : Config α} {calls : List (Call α)} {answers : List (Answer α)}
    (done : Call.performAll calls (ofConfig config) = .ok answers e) :
    Conserved (Chronicle.ofCalls config calls) e := by
  obtain ⟨reports, performed, _⟩ := Call.performAll_ok done
  refine conserved_follow ⟨booked_start config, .nil, ?_, rfl, rfl, rfl⟩ performed
  intro entry member
  cases member

/-- A run removes or keeps what was live and what it spawns. -/
theorem Conserved.run (conserved : Conserved c e) {summary : RunSummary α}
    (done : Emitter.run e = .ok summary after) :
    summary.alive + summary.expired = e.particles.size + summary.spawned := by
  obtain ⟨middle, reports, burst, ticked, _, _, spawned, _, expired, alive⟩ := run_ok done
  have performed : Action.performAll (Call.run.actions e.config) e = .ok reports after :=
    Action.performAll_append burst ticked
  have left := conserved_follow conserved performed
  have before := conserved.size_add_gone
  have afterwards := left.size_add_gone
  have gone := left.expired_eq
  rw [Chronicle.reports_follow performed, List.map_append, List.sum_append, conserved.expired_eq,
    ← expired] at gone
  rw [Chronicle.spawned_follow performed, Call.sum_spawned, Call.spawned, ← spawned] at afterwards
  omega

/-- Every particle is live or was removed, and every contact that was reported is in the record of
one of them, which counts its ticks in contact; a burst begins blank records, in reused slots too;
and a run sums up its ticks. -/
theorem particles_and_contacts_conserved {config : Config Float32} {calls : List (Call Float32)}
    {answers : List (Answer Float32)} {e : Emitter Float32 UInt8}
    (done : Call.performAll calls (ofConfig config) = .ok answers e) :
    let chronicle := Chronicle.ofCalls config calls
    let spawned := (calls.map (Call.spawned config)).sum
    spawned = e.particles.size + (answers.map (·.expired)).sum ∧
      (answers.map (·.collisions)).sum =
        ((List.range e.particles.size).map fun i => bouncesOf (e.stats? i)).sum +
        (chronicle.gone.map fun entry => bouncesOf entry.2).sum ∧
      chronicle.live.length = e.particles.size ∧
      chronicle.gone.length = (answers.map (·.expired)).sum ∧
      (∀ i marks, chronicle.live[i]? = some marks → Tells (e.stats? i) marks) ∧
      (∀ entry ∈ chronicle.gone, Tells entry.2 entry.1) ∧
      (∀ count after, Emitter.spawn count e = .ok () after →
        after.particles.size = e.particles.size + count ∧
          (∀ i < e.particles.size, after.stats? i = e.stats? i) ∧
          ∀ k < count, ∃ serial : UInt32, after.stats? (e.particles.size + k) =
            some ⟨e.time, 0, 0, serial⟩ ∧
            serial.toNat = spawned + k) ∧
      ∀ summary after, Emitter.run e = .ok summary after →
        summary.alive = after.particles.size ∧
          summary.alive + summary.expired = e.particles.size + summary.spawned ∧
          ∃ middle reports,
            Action.performAll (.replicate summary.spawned .spawn) e = .ok [] middle ∧
            Action.performAll (.replicate summary.ticks (.tick config.tickTime)) middle =
              .ok reports after ∧
            summary.spawned = config.particleCount.toNat ∧ summary.ticks = config.ticks.toNat ∧
            reports.length = summary.ticks ∧ summary.collisions = (reports.map (·.collisions)).sum ∧
            summary.expired = (reports.map (·.expired)).sum := by
  intro chronicle spawned
  have conserved := conserved_ofCalls done
  have booked := conserved.booked
  obtain ⟨reports, performed, hits, removed⟩ := Call.performAll_ok done
  have kept : e.config = config := Action.performAll_config performed
  have reported : chronicle.reports = reports := Chronicle.reports_follow performed
  have counted : chronicle.spawned = spawned := by
    have follows := Chronicle.spawned_follow (c := .start) performed
    rw [Call.sum_spawned_flatMap] at follows
    exact follows.trans (Nat.zero_add _)
  have expired := conserved.expired_eq
  rw [reported, ← removed] at expired
  refine ⟨?_, ?_, ?_, expired.symm, fun i marks => conserved.stats?_tells, conserved.gone, ?_, ?_⟩
  · rw [← counted, ← conserved.size_add_gone, expired]
  · rw [hits, conserved.sum_bounces, conserved.sum_gone, ← conserved.collisions_eq, reported]
  · rw [← conserved.live.length_eq, length_places]
  · intro count after burst
    obtain ⟨size, old, fresh⟩ := spawn_ok booked.consistent burst
    rw [booked.spawned_eq, counted] at fresh
    exact ⟨size, old, fresh⟩
  · intro summary after ran
    have balance := conserved.run ran
    obtain ⟨middle, own, burst, ticked, length, ticks, newborn, collisions, gone, alive⟩ :=
      run_ok ran
    rw [← newborn] at burst
    rw [← ticks, kept] at ticked
    rw [kept] at newborn ticks
    exact ⟨alive, balance, middle, own, burst, ticked, newborn, ticks, length, collisions, gone⟩

/-- Two particles fall on the floor and expire, and a third one bounces while they do. -/
theorem particles_and_contacts_conserved_falling :
    let config : Config Float32 :=
      { Config.default with
        lifetime := 1
        modules := .ofModules [.directed ⟨.constant 2, .constant ⟨0, 0, -1⟩⟩]
          [.collision { Collision.default with
            plane₁ := ⟨.unitZ, ⟨0, 0, -1⟩⟩, radius := .custom 0.25 }] }
    let calls : List (Call Float32) := [.spawn 2, .tick 0.5, .spawn 1, .tick 0.5]
    ∃ answers, ∃ e : Emitter Float32 UInt8, Call.performAll calls (ofConfig config) =
      .ok answers e ∧
      e.particles.size = 1 ∧ (answers.map (·.expired)).sum = 2 ∧
      ((List.range e.particles.size).map fun i => bouncesOf (e.stats? i)).sum +
        ((Chronicle.ofCalls config calls).gone.map fun entry => bouncesOf entry.2).sum = 3 := by
  intro config calls
  have outcome : (match Call.performAll calls (ofConfig config : Emitter Float32 UInt8) with
    | .ok answers e => (e.particles.size, (answers.map (·.collisions)).sum)
    | .error _ _ => (0, 0)) = (1, 3) := by decide +kernel
  cases ran : Call.performAll calls (ofConfig config : Emitter Float32 UInt8) with
  | error fault left =>
    rw [ran] at outcome
    cases outcome
  | ok answers e =>
    rw [ran] at outcome
    obtain ⟨alive, contacts⟩ := Prod.mk.inj outcome
    obtain ⟨particles, bounces, _⟩ := particles_and_contacts_conserved ran
    have spawned : (calls.map (Call.spawned config)).sum = 3 := rfl
    refine ⟨answers, e, rfl, alive, ?_, ?_⟩
    · omega
    · rw [← bounces, contacts]

end Emitter

end ParticleSystem
