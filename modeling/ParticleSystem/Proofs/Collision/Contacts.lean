import ParticleSystem.Proofs.Collision.Frame
import ParticleSystem.Scalar.Single

/-!
The contacts of an update, and all that follows from them. An update hands a particle from plane to
plane; who records a contact on the way decides whether the particle counts as collided, whether
anything but its place has changed, and how far the random stream has moved on.
-/

namespace ParticleSystem

variable {α : Type}

/-- What the steps of a fold note down, each about the value and the stream that it finds. -/
def RandomStream.notes {γ δ ε : Type} (f : γ → δ → StateM RandomStream γ)
    (note : γ → δ → RandomStream → List ε) :
    List δ → γ → RandomStream → List ε
  | [], _, _ => []
  | item :: rest, value, stream =>
    note value item stream ++ notes f note rest (f value item stream).1 (f value item stream).2

variable [Scalar α]

namespace Collision

/-- Whether a plane records a contact with a particle. -/
def meets (context : UpdateContext α) (radius : α) (particle : Particle α) (plane : Plane α) :
    Bool :=
  (encounter context radius particle plane).any fun found => found.2.isContact

/-- The contacts that a module records, each by the module itself. Every plane sees the particle as
the planes before it have left it. -/
def contacts (m : Collision α) (context : UpdateContext α) (particle : Particle α)
    (stream : RandomStream) :
    List (Collision α) :=
  let radius := m.radius.compute particle context
  RandomStream.notes (collideWith m.bounce context radius)
    (fun found plane _ => if meets context radius found plane then [m] else [])
      m.planes particle stream

/-- Whether a module turns the normal at random when it bounces a particle. -/
def jittered (m : Collision α) : Bool := !decide (m.bounce.jitter ≤ Scalar.epsilon)

end Collision

/-- The contacts that a module of a stack records. -/
def UpdateModule.contacts (context : UpdateContext α) (particle : Particle α)
    (stream : RandomStream) :
    UpdateModule α → List (Collision α)
  | .collision m => m.contacts context particle stream

/-- The contacts of an update, in order, each by the module that records it. -/
def Stack.contacts (s : Stack α) (context : UpdateContext α) (particle : Particle α)
    (stream : RandomStream) :
    List (Collision α) :=
  RandomStream.notes (fun p m => m.execute context p) (fun p m stream =>
    m.contacts context p stream) s.update
    { particle with collided := false } stream

/-- What becomes of a particle and the random stream on a way with given contacts. -/
structure Passage (contacts : List (Collision α)) (before after : Particle α × RandomStream) :
    Prop where
  make : before.1.SameMake after.1
  collided_eq : after.1.collided = (before.1.collided || !contacts.isEmpty)
  untouched : contacts = [] → after.1.velocity = before.1.velocity ∧
  after.1.contact = before.1.contact ∧
    after.1.timeAfterContact = before.1.timeAfterContact
  stream_eq : after.2 = before.2.drop (2 * contacts.countP Collision.jittered)

namespace Passage

variable {contacts more : List (Collision α)} {before middle after : Particle α × RandomStream}

theorem of_place (particle : Particle α) (position : Vec3 α) (stream : RandomStream) :
    Passage [] (particle, stream) ({ particle with position := position }, stream) where
  make := ⟨rfl, rfl, rfl, rfl, rfl, rfl, rfl⟩
  collided_eq := (Bool.or_false _).symm
  untouched := fun _ => ⟨rfl, rfl, rfl⟩
  stream_eq := rfl

theorem trans (first : Passage contacts before middle) (second : Passage more middle after) :
    Passage (contacts ++ more) before after where
  make := first.make.trans second.make
  collided_eq := by
    rw [second.collided_eq, first.collided_eq, Bool.or_assoc]
    cases contacts <;> rfl
  untouched := by
    intro none
    obtain ⟨early, late⟩ := List.append_eq_nil_iff.mp none
    obtain ⟨velocity, contact, time⟩ := first.untouched early
    obtain ⟨velocity', contact', time'⟩ := second.untouched late
    exact ⟨velocity'.trans velocity, contact'.trans contact, time'.trans time⟩
  stream_eq := by
    rw [second.stream_eq, first.stream_eq, ← RandomStream.drop_add, List.countP_append, Nat.mul_add]

/-- When every step passes a particle on with the contacts that it notes, so does the fold. -/
theorem foldlM {δ : Type} {f : Particle α → δ → StateM RandomStream (Particle α)}
    {note : Particle α → δ → RandomStream → List (Collision α)}
    (step : ∀ particle item stream,
      Passage (note particle item stream) (particle, stream) (f particle item stream))
    (items : List δ) (particle : Particle α) (stream : RandomStream) :
    Passage (RandomStream.notes f note items particle stream) (particle, stream)
      (items.foldlM f particle stream) := by
  induction items generalizing particle stream with
  | nil => exact of_place particle particle.position stream
  | cons item rest ih =>
    rw [List.foldlM_cons, RandomStream.bind_apply]
    exact (step particle item stream).trans (ih _ _)

end Passage

namespace Collision

variable (m : Collision α) (context : UpdateContext α)

private theorem respond_contact_stream (normal : Vec3 α) (particle : Particle α) (position : Vec3 α)
    (distance : α) (stream : RandomStream) :
    (respond m.bounce context normal particle (.contact position distance) stream).2 =
      stream.drop (2 * [m].countP jittered) := by
  by_cases exact : m.bounce.jitter ≤ Scalar.epsilon
  · have none : m.jittered = false := by simp [jittered, exact]
    rw [List.countP_singleton, none, (drawless_respond exact ..).apply_eq stream stream]
    rfl
  · have twice : m.jittered = true := by simp [jittered, exact]
    rw [List.countP_singleton, twice]
    simp only [respond, if_neg exact]
    rfl

private theorem passage_respond (normal : Vec3 α) (particle : Particle α) (met : Encounter α)
    (stream : RandomStream) :
    Passage (if met.isContact then [m] else []) (particle, stream)
      (respond m.bounce context normal particle met stream) := by
  cases met with
  | clear => exact .of_place particle particle.position stream
  | leaving position => exact .of_place particle position stream
  | contact position distance =>
    obtain ⟨collided, -⟩ :=
      respond_contact_recorded m.bounce context particle normal position distance stream
    refine ⟨respond_sameMake .., ?_, nofun, m.respond_contact_stream ..⟩
    rw [collided]
    exact (Bool.or_true _).symm

private theorem passage_collideWith (radius : α) (particle : Particle α) (plane : Plane α)
    (stream : RandomStream) :
    Passage (if meets context radius particle plane then [m] else []) (particle, stream)
      (collideWith m.bounce context radius particle plane stream) := by
  unfold collideWith meets
  cases encounter context radius particle plane with
  | none => exact .of_place particle particle.position stream
  | some found => exact m.passage_respond context found.1.normal particle found.2 stream

theorem passage_execute (particle : Particle α) (stream : RandomStream) :
    Passage (m.contacts context particle stream) (particle, stream)
      (m.execute context particle stream) :=
  .foldlM (fun found plane left => m.passage_collideWith context _ found plane left)
    m.planes particle stream

end Collision

theorem UpdateModule.passage_execute (m : UpdateModule α) (context : UpdateContext α)
    (particle : Particle α) (stream : RandomStream) :
    Passage (m.contacts context particle stream) (particle, stream)
      (m.execute context particle stream) := by
  cases m with
  | collision m => exact m.passage_execute context particle stream

/-- An update passes a particle on whose last contact is forgotten. -/
theorem Stack.passage_runUpdate (s : Stack α) (context : UpdateContext α) (particle : Particle α)
    (stream : RandomStream) :
    Passage (s.contacts context particle stream) ({ particle with collided := false }, stream)
      (s.runUpdate context particle stream) :=
  .foldlM (fun found m left => m.passage_execute context found left) s.update _ stream

theorem Stack.updateParticle_of_bound {s : Stack α} (bound : s.bound = true)
    (context : UpdateContext α) (particle : Particle α) (stream : RandomStream) :
    s.updateParticle context particle stream =
      .ok (s.runUpdate context particle stream).1 (s.runUpdate context particle stream).2 := by
  obtain ⟨spawn, update, _⟩ := s
  subst bound
  rfl

/-- An update leaves the make of a particle alone, whatever its numbers are. The particle
counts as collided exactly when a plane recorded a contact in this very update, whether it did
so before or not; without a contact its motion, its last contact and the random stream stay as
they were; and the stream moves on by two draws for each contact of a jittered module. A module
by itself never takes a contact back. -/
theorem Stack.update_follows_contacts {s : Stack α} (bound : s.bound = true)
    (context : UpdateContext α) (particle : Particle α) (stream : RandomStream) :
    let contacts := s.contacts context particle stream
    (∃ after left, s.updateParticle context particle stream = .ok after left ∧
      particle.SameMake after ∧ (after.collided = true ↔ contacts ≠ []) ∧
      (after.collided = false → after.velocity = particle.velocity ∧
        after.contact = particle.contact ∧
        after.timeAfterContact = particle.timeAfterContact ∧ left = stream) ∧
      left = stream.drop (2 * contacts.countP Collision.jittered)) ∧
    (∀ flag, s.contacts context { particle with collided := flag } stream = contacts ∧
      s.updateParticle context { particle with collided := flag } stream =
        s.updateParticle context particle stream) ∧
    ∀ (m : Collision α) (found : Particle α) (left : RandomStream),
      found.collided = true → (m.execute context found left).1.collided = true := by
  intro contacts
  obtain ⟨make, collided, untouched, drawn⟩ := s.passage_runUpdate context particle stream
  rw [Bool.false_or] at collided
  have own : particle.SameMake { particle with collided := false } :=
    ⟨rfl, rfl, rfl, rfl, rfl, rfl, rfl⟩
  refine ⟨⟨_, _, updateParticle_of_bound bound context particle stream, own.trans make,
    ?_, ?_, drawn⟩,
    fun _ => ⟨rfl, rfl⟩, ?_⟩
  · rw [collided, Bool.not_eq_true', List.isEmpty_eq_false_iff]
  · intro free
    rw [collided, Bool.not_eq_false', List.isEmpty_iff] at free
    obtain ⟨velocity, contact, time⟩ := untouched free
    rw [free] at drawn
    exact ⟨velocity, contact, time, drawn⟩
  · intro m found left hit
    rw [(m.passage_execute context found left).collided_eq, hit, Bool.true_or]

/-- A particle without a proper age falls on a floor and runs into a wall of scattering normals,
past a plane that has none: two contacts, of which one draws. -/
theorem Stack.update_follows_contacts_scattered :
    let floor : Collision Float32 := { Collision.default with radius := .custom 0 }
    let wall : Collision Float32 :=
      { floor with
        bounce := ⟨1, 0.5⟩
        useTwoPlanes := true
        plane₁ := ⟨.zero, .zero⟩
        plane₂ := ⟨⟨-1, 0, 0⟩, ⟨0.5, 0, 0⟩⟩ }
    let stack : Stack Float32 := ⟨[], [.collision floor, .collision wall], true⟩
    let context : UpdateContext Float32 := ⟨⟨0, 1⟩, .unitZ, true, .identity, 1, .one, .one⟩
    let particle : Particle Float32 :=
      { Particle.ofPosition ⟨0, 0, 0.5⟩ with velocity := ⟨1, 0, -1⟩, age := 0 / 0 }
    stack.bound = true ∧ (stack.contacts context particle (.ofSeed 1)).length = 2 ∧
      ∃ after, stack.updateParticle context particle (.ofSeed 1) =
        .ok after ((RandomStream.ofSeed 1).drop 2) ∧
        after.collided = true ∧ after.age = particle.age := by
  intro floor wall stack context particle
  have two : (stack.contacts context particle (.ofSeed 1)).length = 2 := by decide +kernel
  have one : (stack.contacts context particle (.ofSeed 1)).countP Collision.jittered = 1 := by
    decide +kernel
  obtain ⟨⟨after, left, ran, make, collided, -, drawn⟩, -⟩ :=
    Stack.update_follows_contacts (s := stack) rfl context particle (.ofSeed 1)
  rw [one] at drawn
  refine ⟨rfl, two, after, drawn ▸ ran, collided.mpr ?_, make.age_eq⟩
  exact List.ne_nil_of_length_eq_add_one two

end ParticleSystem
