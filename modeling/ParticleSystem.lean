import ParticleSystem.Geometry.Direction
import ParticleSystem.Noise.Field
import ParticleSystem.Form.Particle
import ParticleSystem.Emitter.Report
import ParticleSystem.Main
import ParticleSystem.Proofs.Pool.Representation
import ParticleSystem.Proofs.Pool.Separation
import ParticleSystem.Proofs.Collision.Damping
import ParticleSystem.Proofs.Collision.Scatter
import ParticleSystem.Proofs.Emitter.Floor
import ParticleSystem.Proofs.Emitter.Completion
import ParticleSystem.Proofs.Decimal.Writing
import ParticleSystem.Proofs.Json.Documents
import ParticleSystem.Proofs.Json.Records
import ParticleSystem.Proofs.Form.Distribution
import ParticleSystem.Proofs.Form.Stack
import ParticleSystem.Proofs.Form.RoundTrip
import ParticleSystem.Proofs.Emitter.Rebinding
import ParticleSystem.Proofs.Collision.Frame
import ParticleSystem.Proofs.Emitter.Entries
import ParticleSystem.Proofs.Emitter.Batches
import ParticleSystem.Proofs.Emitter.Independence
import ParticleSystem.Proofs.Noise.Support
import ParticleSystem.Proofs.Collision.Confinement
import ParticleSystem.Proofs.Emitter.LocalSpace
import ParticleSystem.Proofs.Pool.Refusals
import ParticleSystem.Proofs.Emitter.HitTimes
import ParticleSystem.Proofs.Collision.Mirror
import ParticleSystem.Proofs.Geometry.Image
import ParticleSystem.Proofs.Collision.Faces
import ParticleSystem.Proofs.Collision.Sequence
import ParticleSystem.Proofs.Collision.Contacts
import ParticleSystem.Proofs.Emitter.Draws
import ParticleSystem.Proofs.Emitter.Bursts
import ParticleSystem.Proofs.Noise.Gradient
import ParticleSystem.Proofs.Distribution.Interpolation
import ParticleSystem.Proofs.Distribution.Range
import ParticleSystem.Proofs.Noise.Hashing
import ParticleSystem.Proofs.Collision.Normalization
import ParticleSystem.Proofs.Spawn.Aperture
import ParticleSystem.Proofs.Pool.Reuse
import ParticleSystem.Proofs.Pool.Images
import ParticleSystem.Proofs.Config.Partial
import ParticleSystem.Proofs.Emitter.Heights
import ParticleSystem.Proofs.Collision.Enclosure
import ParticleSystem.Proofs.Pool.Strides
