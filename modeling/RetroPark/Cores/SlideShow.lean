import RetroPark.Cores.RefCoreRollback
import RetroPark.Render.Gl.GLBackend

/-!
# A core with a given sequence of frames

`SlideShow.core frames` is the reference rollback core with a counter for a state, which delivers in
its `n`-th frame the `n`-th entry of `frames`: a slide, a texture, a duplicate or nothing at all.
`driven` shows that it is a deterministic core with faithful savestates, and `loaded` is a headless
runtime on the OpenGL backend that has loaded it.
-/

namespace RetroPark.SlideShow

/-- A valid frame of a single pixel. -/
def slide (red : UInt8) : HostCall := .videoRefresh (some [red, 0, 0, 255]) 1 1 4

/-- The core behind its table. -/
def core (frames : List (List HostCall)) : CoreEnv RefCoreRollback :=
  { RefCoreRollback.core with
    runFrame := fun k _ _ _ =>
      { value := (), calls := frames.getD k.acc.toNat [], core := { acc := k.acc + 1 } } }

/-- Its whole state is the counter. -/
def driven (frames : List (List HostCall)) (c : CorePtr) : DrivenCore (core frames) c UInt32 :=
  { RefCoreRollback.driven c with
    step := fun acc _ => acc + 1
    runFrame_view := fun _ _ _ => rfl }

/-- No audio output. -/
def audio : Gl.AudioEnv Unit where
  audioOpen _ _ := (.device, ())
  audioSubmit _ _ := ()
  audioClose _ := ()

/-- The core on the OpenGL backend. -/
def env (frames : List (List HostCall)) : Env RefCoreRollback (Gl.GLBackend × Unit) :=
  Gl.onGl (core frames) RefCoreRollback.modules audio

/-- A headless runtime after `load_core`. -/
def loaded (frames : List (List HostCall)) : World RefCoreRollback (Gl.GLBackend × Unit) :=
  ((Runtime.loadCore (env frames) "slides").run
    (Runtime.new (env frames) Gl.apiOpenGl 0 { acc := 0 } ({}, ()))).2

theorem loaded_live (frames : List (List HostCall)) :
    Runtime.Live (env frames) (driven frames 1) (loaded frames) 0 :=
  ⟨⟨rfl, rfl, rfl, nofun, rfl, rfl, rfl, rfl, rfl, rfl⟩, rfl⟩

end RetroPark.SlideShow
