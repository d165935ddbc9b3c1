import RetroPark.Render.Vulkan.VulkanBackend
import Mathlib.Data.List.Basic

/-!
# Reading back from the headless Vulkan backend

A headless composite draws into an offscreen image, copies the image into a staging buffer and the
buffer into the caller's pixels. Both are made at the first composite and kept; the size of the
display can change later.

* `HeadlessBackend` is the backend as far as its readback reads or writes it, with every Vulkan call
  succeeding;
* `readbacks` are the copies that a sequence of calls performs, each with the buffers it uses;
* `readbacks_inside_iff` is when all of them stay inside their buffers.
-/

namespace RetroPark.Vulkan

/-- `VkExtent2D` -/
structure Extent where
  width : UInt32
  height : UInt32
  deriving DecidableEq, Repr

namespace Extent

/-- The size of an RGBA8 image in bytes. -/
def bytes (e : Extent) : ℕ := e.width.toNat * e.height.toNat * 4

/-- `static_cast<VkDeviceSize>(width_) * height_ * 4` -/
def deviceSize (e : Extent) : UInt64 := e.width.toUInt64 * e.height.toUInt64 * 4

/-- Whether the size in bytes is a `VkDeviceSize`. -/
def Fits (e : Extent) : Prop := e.bytes < 2 ^ 64

instance (e : Extent) : Decidable e.Fits := inferInstanceAs (Decidable (_ < _))

theorem toNat_deviceSize (e : Extent) : e.deviceSize.toNat = e.bytes % 2 ^ 64 := by
  simp [deviceSize, bytes, Nat.mul_mod]

/-- A buffer of the size the backend computes holds the image unless the size wraps. -/
theorem bytes_le_deviceSize (e : Extent) : e.bytes ≤ e.deviceSize.toNat ↔ e.Fits := by
  rw [toNat_deviceSize, Fits]
  constructor
  · intro h
    exact Nat.lt_of_le_of_lt h (Nat.mod_lt _ (by decide))
  · intro h
    exact Nat.le_of_eq (Nat.mod_eq_of_lt h).symm

end Extent

/-- `offscreen_image_` and `staging_buf_`, which are created together. -/
structure Offscreen where
  extent : Extent
  staging : UInt64
  deriving DecidableEq, Repr

/-- A copy of `region` from the offscreen image to the staging buffer, or from there to the
caller. -/
structure Readback where
  /-- Whether it is the copy to the caller. -/
  out : Bool
  region : Extent
  offscreen : Offscreen
  deriving DecidableEq, Repr

/-- The offscreen image has the size of the copied region, and the staging buffer has room for
it. -/
def Readback.Inside (r : Readback) : Prop :=
  r.offscreen.extent = r.region ∧ r.region.bytes ≤ r.offscreen.staging.toNat

instance (r : Readback) : Decidable r.Inside := inferInstanceAs (Decidable (_ ∧ _))

/-- The display that a backend composites for: what its initialization and its surfaces leave
behind. -/
structure Display where
  device : Bool := false
  /-- `width_` and `height_`. -/
  size : Extent := ⟨0, 0⟩
  /-- `surfaces_.size()`. -/
  surfaces : ℕ := 0
  deriving DecidableEq, Repr

/-- `rp::VulkanBackend` without a window, as far as its readback reads or writes it. -/
structure HeadlessBackend extends Display where
  offscreen : Option Offscreen := none
  /-- The size of the image that `composite_driven` uploads to, once there is one. -/
  driven : Option Extent := none
  deriving DecidableEq, Repr

/-- A call of a method of the backend. -/
inductive BackendCall
  | initializeBackend (size : Extent)
  | allocateSurfaces (count : ℕ) (size : Extent)
  | compositeAndPresent (readyIndex : ℕ) (hasFrame outRgba : Bool)
  | compositeDriven (frame : Extent) (dupe outRgba : Bool)
  deriving DecidableEq, Repr

/-- What a call does: its result, its copies, and the backend it leaves. -/
structure Outcome where
  result : Except Failure Unit
  readbacks : List Readback
  backend : HeadlessBackend

/-- `count` surfaces of the given size are what `allocate_surfaces` leaves when it accepts them. -/
def Display.allocate (count : ℕ) (size : Extent) (d : Display) : Display :=
  { d with surfaces := count, size := size }

namespace HeadlessBackend

/-- `initialize` -/
def initializeBackend (size : Extent) (b : HeadlessBackend) : Outcome :=
  ⟨.ok (), [], { b with size := size, device := true }⟩

/-- `allocate_surfaces` -/
def allocateSurfaces (count : ℕ) (size : Extent) (b : HeadlessBackend) : Outcome :=
  if !b.device then ⟨.error ⟨.internal, "device not initialized"⟩, [], b⟩
  else if count = 0 then ⟨.error ⟨.badArg, "count must be > 0"⟩, [], b⟩
  else ⟨.ok (), [], { b with toDisplay := b.toDisplay.allocate count size }⟩

/-- `ensure_composite_resources`: the offscreen image and the staging buffer, created if there are
none. -/
def ensureCompositeResources (b : HeadlessBackend) : Offscreen × HeadlessBackend :=
  match b.offscreen with
  | some t => (t, b)
  | none =>
    let t : Offscreen := ⟨b.size, b.size.deviceSize⟩
    (t, { b with offscreen := some t })

/-- `record_offscreen_readback` -/
def recordOffscreenReadback (t : Offscreen) (b : HeadlessBackend) : Readback := ⟨false, b.size, t⟩

/-- `copy_staging_to_out` -/
def copyStagingToOut (t : Offscreen) (b : HeadlessBackend) : Readback := ⟨true, b.size, t⟩

/-- `composite_and_present`: the copy to the staging buffer is recorded in any case. -/
def compositeAndPresent (readyIndex : ℕ) (hasFrame outRgba : Bool)
    (b : HeadlessBackend) : Outcome :=
  if !b.device then ⟨.error ⟨.internal, "device not initialized"⟩, [], b⟩
  else if hasFrame && decide (b.surfaces ≤ readyIndex) then
    ⟨.error ⟨.badArg, "bad ready_index"⟩, [], b⟩
  else
    let (t, b) := b.ensureCompositeResources
    ⟨.ok (), b.recordOffscreenReadback t :: if outRgba then [b.copyStagingToOut t] else [], b⟩

/-- `upload_driven_frame`: the image is recreated when the frame has another size. -/
def uploadDrivenFrame (frame : Extent) (b : HeadlessBackend) : HeadlessBackend :=
  if b.driven = some frame then b else { b with driven := some frame }

/-- `composite_driven` -/
def compositeDriven (frame : Extent) (dupe outRgba : Bool) (b : HeadlessBackend) : Outcome :=
  if !b.device then ⟨.error ⟨.internal, "device not initialized"⟩, [], b⟩
  else
    let (t, b) := b.ensureCompositeResources
    let b := if !dupe then b.uploadDrivenFrame frame else b
    ⟨.ok (), if outRgba then [b.recordOffscreenReadback t, b.copyStagingToOut t] else [], b⟩

def call (c : BackendCall) (b : HeadlessBackend) : Outcome :=
  match c with
  | .initializeBackend size => b.initializeBackend size
  | .allocateSurfaces count size => b.allocateSurfaces count size
  | .compositeAndPresent readyIndex hasFrame outRgba =>
    b.compositeAndPresent readyIndex hasFrame outRgba
  | .compositeDriven frame dupe outRgba => b.compositeDriven frame dupe outRgba

/-- The copies of a sequence of calls, in order. -/
def readbacks (b : HeadlessBackend) : List BackendCall → List Readback
  | [] => []
  | c :: cs => (b.call c).readbacks ++ readbacks (b.call c).backend cs

end HeadlessBackend

/-! ### The composites of a sequence of calls -/

namespace Display

/-- A composite: the size of the display at the time, and whether anything is read back. -/
structure Composite where
  size : Extent
  reads : Bool
  deriving DecidableEq, Repr

/-- What a call makes of the display. -/
def after (d : Display) : BackendCall → Display
  | .initializeBackend size => { d with size := size, device := true }
  | .allocateSurfaces count size => if d.device ∧ count ≠ 0 then d.allocate count size else d
  | _ => d

/-- The composite that a call performs, unless its checks turn it away. -/
def composite? (d : Display) : BackendCall → Option Composite
  | .compositeAndPresent readyIndex hasFrame _ =>
    if d.device ∧ (hasFrame → readyIndex < d.surfaces) then some ⟨d.size, true⟩ else none
  | .compositeDriven _ _ outRgba => if d.device then some ⟨d.size, outRgba⟩ else none
  | _ => none

/-- The composites of a sequence of calls. -/
def composites (d : Display) : List BackendCall → List Composite
  | [] => []
  | c :: cs => (d.composite? c).toList ++ composites (d.after c) cs

/-- Every composite that reads back does so at the size of the first composite, and that size does
not wrap. -/
def KeepsFirstSize (composites : List Composite) : Prop :=
  ∀ first ∈ composites.head?, ∀ c ∈ composites, c.reads = true →
    c.size = first.size ∧ first.size.Fits

end Display

namespace HeadlessBackend

variable {b : HeadlessBackend} {t : Offscreen} {c : BackendCall} {x : Display.Composite}

theorem ensureCompositeResources_display (b : HeadlessBackend) :
    b.ensureCompositeResources.2.toDisplay = b.toDisplay := by
  unfold ensureCompositeResources
  cases b.offscreen <;> rfl

theorem ensureCompositeResources_offscreen (b : HeadlessBackend) :
    b.ensureCompositeResources.2.offscreen = some b.ensureCompositeResources.1 := by
  unfold ensureCompositeResources
  cases h : b.offscreen with
  | none => rfl
  | some t => exact h

theorem uploadDrivenFrame_eq (frame : Extent) (b : HeadlessBackend) :
    ∃ driven, b.uploadDrivenFrame frame = { b with driven := driven } := by
  unfold uploadDrivenFrame
  by_cases h : b.driven = some frame
  · exact ⟨b.driven, if_pos h⟩
  · exact ⟨some frame, if_neg h⟩

/-- The buffers a composite uses: those there are, or new ones of the size of the display. -/
theorem ensureCompositeResources_fst (b : HeadlessBackend) :
    b.ensureCompositeResources.1 = b.offscreen.getD ⟨b.size, b.size.deviceSize⟩ := by
  unfold ensureCompositeResources
  cases b.offscreen <;> rfl

/-- Past its checks, `composite_and_present` copies to the staging buffer, and on to the caller who
asks for pixels. -/
theorem compositeAndPresent_eq {readyIndex : ℕ} {hasFrame : Bool} (outRgba : Bool)
    (h : b.device = true ∧ (hasFrame = true → readyIndex < b.surfaces)) :
    b.compositeAndPresent readyIndex hasFrame outRgba =
      ⟨.ok (), ⟨false, b.size, b.ensureCompositeResources.1⟩ ::
        if outRgba then [⟨true, b.size, b.ensureCompositeResources.1⟩] else [],
        b.ensureCompositeResources.2⟩ := by
  have hsize : b.ensureCompositeResources.2.size = b.size :=
    congrArg Display.size b.ensureCompositeResources_display
  have hindex : ¬(hasFrame && decide (b.surfaces ≤ readyIndex)) = true := by
    simpa using h.2
  unfold compositeAndPresent
  rw [h.1, if_neg (by decide), if_neg hindex, ← hsize]
  rfl

theorem compositeAndPresent_rejects {readyIndex : ℕ} {hasFrame : Bool} (outRgba : Bool)
    (h : ¬(b.device = true ∧ (hasFrame = true → readyIndex < b.surfaces))) :
    ∃ e, b.compositeAndPresent readyIndex hasFrame outRgba = ⟨.error e, [], b⟩ := by
  unfold compositeAndPresent
  by_cases hdevice : b.device = true
  · have hindex : (hasFrame && decide (b.surfaces ≤ readyIndex)) = true := by
      simpa [hdevice] using h
    rw [hdevice, if_neg (by decide), if_pos hindex]
    exact ⟨_, rfl⟩
  · rw [Bool.not_eq_true] at hdevice
    rw [hdevice, if_pos (by decide)]
    exact ⟨_, rfl⟩

theorem compositeDriven_eq (frame : Extent) (dupe outRgba : Bool) (h : b.device = true) :
    ∃ driven, b.compositeDriven frame dupe outRgba =
      ⟨.ok (), if outRgba then [⟨false, b.size, b.ensureCompositeResources.1⟩,
          ⟨true, b.size, b.ensureCompositeResources.1⟩] else [],
        { b.ensureCompositeResources.2 with driven := driven }⟩ := by
  have hsize : b.ensureCompositeResources.2.size = b.size :=
    congrArg Display.size b.ensureCompositeResources_display
  unfold compositeDriven
  rw [h, if_neg (by decide), ← hsize]
  cases dupe with
  | true => exact ⟨b.ensureCompositeResources.2.driven, rfl⟩
  | false =>
    obtain ⟨driven, heq⟩ := uploadDrivenFrame_eq frame b.ensureCompositeResources.2
    refine ⟨driven, ?_⟩
    dsimp only
    rw [Bool.not_false, if_pos rfl, heq]
    rfl

theorem compositeDriven_rejects (frame : Extent) (dupe outRgba : Bool) (h : b.device = false) :
    ∃ e, b.compositeDriven frame dupe outRgba = ⟨.error e, [], b⟩ := by
  unfold compositeDriven
  rw [h, if_pos (by decide)]
  exact ⟨_, rfl⟩

/-- A call that composites nothing copies nothing and creates nothing. -/
theorem call_of_composite?_none (h : b.composite? c = none) :
    (b.call c).readbacks = [] ∧ (b.call c).backend.offscreen = b.offscreen := by
  cases c with
  | initializeBackend size => exact ⟨rfl, rfl⟩
  | allocateSurfaces count size =>
    change (b.allocateSurfaces count size).readbacks = [] ∧
      (b.allocateSurfaces count size).backend.offscreen = b.offscreen
    unfold allocateSurfaces
    split_ifs <;> exact ⟨rfl, rfl⟩
  | compositeAndPresent readyIndex hasFrame outRgba =>
    have hcheck : ¬(b.device = true ∧ (hasFrame = true → readyIndex < b.surfaces)) := by
      simpa [Display.composite?] using h
    obtain ⟨e, heq⟩ := compositeAndPresent_rejects outRgba hcheck
    have hcall : b.call (.compositeAndPresent readyIndex hasFrame outRgba) = _ := heq
    rw [hcall]
    exact ⟨rfl, rfl⟩
  | compositeDriven frame dupe outRgba =>
    have hdevice : b.device = false := by
      simpa [Display.composite?] using h
    obtain ⟨e, heq⟩ := compositeDriven_rejects frame dupe outRgba hdevice
    have hcall : b.call (.compositeDriven frame dupe outRgba) = _ := heq
    rw [hcall]
    exact ⟨rfl, rfl⟩

/-- A composite happens at the size of the display; what it reads back, it reads through the buffers
there are after it. -/
theorem call_of_composite?_some (h : b.composite? c = some x) :
    x.size = b.size ∧
      (b.call c).backend.offscreen = some b.ensureCompositeResources.1 ∧
      ((∀ r ∈ (b.call c).readbacks, r.Inside) ↔
        (x.reads = true → Readback.Inside ⟨true, b.size, b.ensureCompositeResources.1⟩)) := by
  have hoffscreen := b.ensureCompositeResources_offscreen
  cases c with
  | initializeBackend size => exact nomatch h
  | allocateSurfaces count size => exact nomatch h
  | compositeAndPresent readyIndex hasFrame outRgba =>
    unfold Display.composite? at h
    dsimp only at h
    split_ifs at h with hcheck
    obtain rfl := Option.some.inj h
    have heq : b.call (.compositeAndPresent readyIndex hasFrame outRgba) = _ :=
      compositeAndPresent_eq outRgba hcheck
    rw [heq]
    refine ⟨rfl, hoffscreen, ?_⟩
    cases outRgba <;> simp [Readback.Inside]
  | compositeDriven frame dupe outRgba =>
    unfold Display.composite? at h
    dsimp only at h
    split_ifs at h with hdevice
    obtain rfl := Option.some.inj h
    obtain ⟨driven, heq⟩ := compositeDriven_eq frame dupe outRgba hdevice
    have hcall : b.call (.compositeDriven frame dupe outRgba) = _ := heq
    rw [hcall]
    refine ⟨rfl, hoffscreen, ?_⟩
    cases outRgba <;> simp [Readback.Inside]

/-- Every call does to the display what `Display.after` says. -/
theorem call_display (b : HeadlessBackend) (c : BackendCall) :
    (b.call c).backend.toDisplay = b.toDisplay.after c := by
  -- A composite makes its buffers when they are missing, which the display does not show.
  have hdisplay := b.ensureCompositeResources_display
  cases c with
  | initializeBackend size => rfl
  | allocateSurfaces count size =>
    change (b.allocateSurfaces count size).backend.toDisplay =
      if b.device = true ∧ count ≠ 0 then b.toDisplay.allocate count size else b.toDisplay
    unfold allocateSurfaces
    by_cases hdevice : b.device = true
    · by_cases hcount : count = 0
      · simp [hdevice, hcount]
      · simp [hdevice, hcount]
    · simp [hdevice]
  | compositeAndPresent readyIndex hasFrame outRgba =>
    change (b.compositeAndPresent readyIndex hasFrame outRgba).backend.toDisplay = b.toDisplay
    by_cases hcheck : b.device = true ∧ (hasFrame = true → readyIndex < b.surfaces)
    · rw [compositeAndPresent_eq outRgba hcheck]
      exact hdisplay
    · obtain ⟨e, heq⟩ := compositeAndPresent_rejects outRgba hcheck
      rw [heq]
  | compositeDriven frame dupe outRgba =>
    change (b.compositeDriven frame dupe outRgba).backend.toDisplay = b.toDisplay
    cases hdevice : b.device with
    | true =>
      obtain ⟨driven, heq⟩ := compositeDriven_eq frame dupe outRgba hdevice
      rw [heq]
      exact hdisplay
    | false =>
      obtain ⟨e, heq⟩ := compositeDriven_rejects frame dupe outRgba hdevice
      rw [heq]

/-- Once there are buffers they are kept, and a composite that reads back stays inside them when the
display still has their size. -/
theorem readbacks_of_offscreen (h : b.offscreen = some t) (calls : List BackendCall) :
    (∀ r ∈ b.readbacks calls, r.Inside) ↔
      ∀ x ∈ b.toDisplay.composites calls, x.reads = true →
        Readback.Inside ⟨true, x.size, t⟩ := by
  induction calls generalizing b with
  | nil => simp [readbacks, Display.composites]
  | cons c calls ih =>
    rw [readbacks, Display.composites, List.forall_mem_append, List.forall_mem_append,
      ← call_display]
    cases hx : b.composite? c with
    | none =>
      obtain ⟨hnil, hsame⟩ := call_of_composite?_none hx
      rw [hnil, ih (hsame.trans h)]
      simp
    | some x =>
      obtain ⟨hsize, hsame, hinside⟩ := call_of_composite?_some hx
      rw [ensureCompositeResources_fst, h, Option.getD_some] at hsame hinside
      rw [hinside, ih hsame]
      simp [hsize]

/-- The buffers of a composite that creates them have its size. -/
theorem inside_created (size first : Extent) :
    Readback.Inside ⟨true, size, ⟨first, first.deviceSize⟩⟩ ↔ size = first ∧ first.Fits := by
  unfold Readback.Inside
  constructor
  · rintro ⟨heq, hle⟩
    obtain rfl : first = size := heq
    exact ⟨rfl, first.bytes_le_deviceSize.mp hle⟩
  · rintro ⟨rfl, hfits⟩
    exact ⟨rfl, size.bytes_le_deviceSize.mpr hfits⟩

/-- What is read back stays inside its buffers exactly when every composite that reads back happens
at the size of the first composite. -/
theorem readbacks_inside_iff (calls : List BackendCall) :
    (∀ r ∈ ({} : HeadlessBackend).readbacks calls, r.Inside) ↔
      Display.KeepsFirstSize (Display.composites {} calls) := by
  -- Induction on the calls; until the first composite the buffers do not exist.
  suffices h : ∀ b : HeadlessBackend, b.offscreen = none →
      ((∀ r ∈ b.readbacks calls, r.Inside) ↔
        Display.KeepsFirstSize (b.toDisplay.composites calls)) from h {} rfl
  intro b hb
  induction calls generalizing b with
  | nil => simp [readbacks, Display.composites, Display.KeepsFirstSize]
  | cons c calls ih =>
    rw [readbacks, Display.composites, List.forall_mem_append, ← call_display]
    cases hx : b.composite? c with
    | none =>
      obtain ⟨hnil, hsame⟩ := call_of_composite?_none hx
      rw [hnil, ih _ (hsame.trans hb)]
      simp
    | some x =>
      -- The first composite creates the buffers at its size, and they stay.
      obtain ⟨hsize, hcreated, hinside⟩ := call_of_composite?_some hx
      rw [ensureCompositeResources_fst, hb, Option.getD_none] at hcreated hinside
      rw [hinside, readbacks_of_offscreen hcreated]
      simp only [inside_created, Display.KeepsFirstSize, Option.toList_some, List.cons_append,
        List.nil_append, List.head?_cons, Option.mem_some_iff, forall_eq', List.forall_mem_cons,
        hsize]

/-- A resize between two composites that read back. -/
def resize : List BackendCall :=
  [.initializeBackend ⟨64, 64⟩, .allocateSurfaces 3 ⟨64, 64⟩, .compositeAndPresent 0 true true,
    .allocateSurfaces 3 ⟨128, 128⟩, .compositeAndPresent 0 true true]

theorem resize_reads_outside :
    ¬∀ r ∈ ({} : HeadlessBackend).readbacks resize, r.Inside := by
  decide +kernel

end HeadlessBackend

end RetroPark.Vulkan
