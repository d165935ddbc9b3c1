import RetroPark.Abi
import Mathlib.Tactic.SplitIfs

/-!
# The surface ring

`SurfaceRing` remembers the last frame a presenting core submitted: its slot, the value its
timeline reaches once the frame is complete, and the generation of the surfaces it was rendered
into. Reallocating the surfaces starts a new generation with nothing ready, and a submission
carrying an older generation is dropped.

Each method is one atomic step here, which is how the runtime's host thread sees it between two
submissions.
-/

namespace RetroPark

/-- `rp::SurfaceRing`. -/
structure SurfaceRing where
  slotCount : ℕ
  width : UInt32 := 0
  height : UInt32 := 0
  generation : ℕ := 0
  producerCursor : ℕ := 0
  hasReady : Bool := false
  readyIndex : ℕ := 0
  readyGeneration : ℕ := 0
  readySync : ℕ := 0
  deriving DecidableEq

namespace SurfaceRing

/-- The constructor: at least one slot. -/
def new (slotCount : ℕ) : SurfaceRing :=
  { slotCount := if slotCount = 0 then 1 else slotCount }

/-- Start a new generation, with nothing ready. -/
def reallocate (r : SurfaceRing) (width height : UInt32) : SurfaceRing :=
  { r with
    width, height
    generation := r.generation + 1
    producerCursor := 0
    hasReady := false }

/-- Hand out the slots round robin. -/
def nextProducerSlot (r : SurfaceRing) : ℕ × SurfaceRing :=
  (r.producerCursor, { r with producerCursor := (r.producerCursor + 1) % r.slotCount })

/-- Record a submitted frame unless its generation or slot is wrong. -/
def acceptSubmit (r : SurfaceRing) (index generation syncValue : ℕ) : Bool × SurfaceRing :=
  if generation ≠ r.generation then (false, r)
  else if r.slotCount ≤ index then (false, r)
  else
    (true,
      { r with
        readyIndex := index
        readyGeneration := generation
        readySync := syncValue
        hasReady := true })

/-- The slot and timeline value of the last frame submitted in the current generation. -/
def latestReady (r : SurfaceRing) : Option (ℕ × ℕ) :=
  if !r.hasReady then none
  else if r.readyGeneration ≠ r.generation then none
  else some (r.readyIndex, r.readySync)

/-- An accepted submission carries the current generation and becomes the latest ready frame. -/
theorem latestReady_of_acceptSubmit {r : SurfaceRing} {index generation syncValue : ℕ}
    (h : (r.acceptSubmit index generation syncValue).1 = true) :
    generation = r.generation ∧
      (r.acceptSubmit index generation syncValue).2.latestReady = some (index, syncValue) := by
  unfold acceptSubmit at h ⊢
  split_ifs at h ⊢ with hgen hslot
  have hgen' : generation = r.generation := Decidable.not_not.mp hgen
  exact ⟨hgen', by simp [latestReady, hgen']⟩

theorem acceptSubmit_slotCount (r : SurfaceRing) (index generation syncValue : ℕ) :
    (r.acceptSubmit index generation syncValue).2.slotCount = r.slotCount := by
  unfold acceptSubmit
  split_ifs <;> rfl

/-- A submission of the current generation to one of the slots becomes the latest ready frame. -/
theorem latestReady_acceptSubmit {r : SurfaceRing} {index syncValue : ℕ}
    (hindex : index < r.slotCount) :
    (r.acceptSubmit index r.generation syncValue).2.latestReady = some (index, syncValue) := by
  rw [acceptSubmit, if_neg (fun h => h rfl), if_neg (Nat.not_le.mpr hindex)]
  simp [latestReady]

/-- A rejected submission leaves the ring as it is. -/
theorem acceptSubmit_eq_self {r : SurfaceRing} {index generation syncValue : ℕ}
    (h : (r.acceptSubmit index generation syncValue).1 = false) :
    (r.acceptSubmit index generation syncValue).2 = r := by
  unfold acceptSubmit at h ⊢
  split_ifs at h ⊢ <;> rfl

end SurfaceRing

end RetroPark
