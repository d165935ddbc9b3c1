import RetroPark.Cores.LibretroShim.LibretroShim

/-!
# What a libretro core does through its callbacks

Whatever callbacks a function of the libretro core makes, the shim keeps its game and its
framebuffer, and logs the frames it is given. `Served` says so of the shim before and after;
`runEntry_served` shows it of every function. A core that draws without OpenGL has the host called
once for each of its frames.
-/

namespace RetroPark.LibretroShim

/-- The calls that deliver a frame. -/
def isVideo : HostCall → Bool
  | .videoRefresh _ _ _ _ | .videoRefreshGl _ _ _ _ => true
  | _ => false

/-- The call for a frame of a core that has no framebuffer. -/
def VideoFrame.softCall (f : VideoFrame) : HostCall :=
  match f.data with
  | .hwFrameBuffer | .dupe => .videoRefresh none f.width f.height 0
  | .pixels data =>
      if f.width = 0 ∨ f.height = 0 then .videoRefresh none f.width f.height 0
      else
        .videoRefresh
          (some (convertToRgba8 data f.width f.height (UInt32.ofNat f.pitch) f.format
            (frameBuffer f.width f.height)))
          f.width f.height (f.width * 4)

/-- The frame that an event of the log records. -/
def RetroEvent.frame? : RetroEvent → Option VideoFrame
  | .video f => some f
  | _ => none

variable {Λ α : Type} (P : Platform Λ)

/-- A software core's frame is passed on as a CPU frame. -/
theorem videoCall_soft {i : Instance Λ} (h : i.hw = none) (f : VideoFrame) :
    videoCall P i f = f.softCall := by
  unfold videoCall VideoFrame.softCall
  cases f.data with
  | hwFrameBuffer => simp only [h]
  | dupe => rfl
  | pixels data => rfl

/-- A CPU frame is passed on through a video callback. -/
theorem isVideo_softCall (f : VideoFrame) : isVideo f.softCall = true := by
  unfold VideoFrame.softCall
  split
  · rfl
  · rfl
  · split_ifs <;> rfl

/-- Between `s` and `s'` the libretro core has only made callbacks. -/
structure Served (s s' : Frontend Λ) : Prop where
  gameLoaded : s'.inst.gameLoaded = s.inst.gameLoaded
  hw : s'.inst.hw.isSome = s.inst.hw.isSome
  delivered : ∃ (fs : List VideoFrame) (cs : List HostCall), s'.log = fs.map RetroEvent.video ++
    s.log ∧ s'.calls = s.calls ++ cs ∧
    (s.inst.hw = none → cs.filter isVideo = (fs.map VideoFrame.softCall).reverse)

namespace Served

variable {s s' s'' : Frontend Λ}

/-- No callback is served in no time. -/
theorem refl (s : Frontend Λ) : Served s s :=
  ⟨rfl, rfl, [], [], rfl, (List.append_nil _).symm, fun _ => rfl⟩

/-- Callbacks after callbacks are callbacks. -/
theorem trans (h : Served s s') (h' : Served s' s'') : Served s s'' := by
  obtain ⟨fs, cs, hlog, hcalls, hsoft⟩ := h.delivered
  obtain ⟨fs', cs', hlog', hcalls', hsoft'⟩ := h'.delivered
  refine ⟨h'.gameLoaded.trans h.gameLoaded, h'.hw.trans h.hw, fs' ++ fs, cs ++ cs', ?_, ?_, ?_⟩
  · rw [hlog', hlog, List.map_append, List.append_assoc]
  · rw [hcalls', hcalls, List.append_assoc]
  · intro hnone
    have hnone' : s'.inst.hw = none := by
      rw [← Option.not_isSome_iff_eq_none, h.hw, hnone]
      exact Bool.false_ne_true
    rw [List.filter_append, hsoft hnone, hsoft' hnone', List.map_append, List.reverse_append]

/-- The shim edits its instance. -/
theorem edit (s : Frontend Λ) (f : Instance Λ → Instance Λ)
    (hgame : (f s.inst).gameLoaded = s.inst.gameLoaded)
    (hhw : (f s.inst).hw.isSome = s.inst.hw.isSome) : Served s { s with inst := f s.inst } :=
  ⟨hgame, hhw, [], [], rfl, (List.append_nil _).symm, fun _ => rfl⟩

/-- The shim calls the host for something other than a frame. -/
theorem host (s : Frontend Λ) {c : HostCall} (hc : isVideo c = false) :
    Served s { s with calls := s.calls ++ [c] } := by
  refine ⟨rfl, rfl, [], [c], rfl, rfl, fun _ => ?_⟩
  rw [List.filter_singleton, hc]
  rfl

/-- The shim is given a frame. -/
theorem video (s : Frontend Λ) (f : VideoFrame) :
    Served s { s with log := .video f :: s.log, calls := s.calls ++ [videoCall P s.inst f] } := by
  refine ⟨rfl, rfl, [f], [videoCall P s.inst f], rfl, rfl, fun hnone => ?_⟩
  rw [videoCall_soft P hnone, List.filter_singleton, isVideo_softCall]
  rfl

end Served

/-- The environment callback loads no game and sets up no context. -/
theorem envCb_kept (sysDir : Blob) (i : Instance Λ) (c : EnvCommand) :
    (i.envCb sysDir c).2.gameLoaded = i.gameLoaded ∧ (i.envCb sysDir c).2.hw = i.hw := by
  cases c with
  | setHwRender cb =>
    simp only [Instance.envCb, Instance.setHwRender]
    cases cb with
    | none => exact ⟨rfl, rfl⟩
    | some cb =>
      dsimp only
      split_ifs <;> exact ⟨rfl, rfl⟩
  | _ => exact ⟨rfl, rfl⟩

/-- Every callback only serves the libretro core. -/
theorem answer_served (ports : Option (InputState × InputState)) (c : Callback) (s : Frontend Λ) :
    Served s ((answer P ports c).run s).2 := by
  cases c with
  | environment c =>
    obtain ⟨hgame, hhw⟩ := envCb_kept P.sysDir s.inst c
    exact .edit s (fun i => (i.envCb P.sysDir c).2) hgame (congrArg Option.isSome hhw)
  | videoRefresh data width height pitch =>
    exact .video P s { format := s.inst.pixelFormat, data, width, height, pitch }
  | audioSample left right => exact .host s rfl
  | audioSampleBatch data frames =>
    -- An empty batch is not passed on.
    by_cases hsome : data.isSome ∧ frames ≠ 0
    · have hrun : ((answer P ports (.audioSampleBatch data frames)).run s).2 =
          { s with calls := s.calls ++ [.audioSample data frames] } := by
        simp only [answer, if_pos hsome]
        rfl
      rw [hrun]
      exact .host s rfl
    · have hrun : ((answer P ports (.audioSampleBatch data frames)).run s).2 = s := by
        simp only [answer, if_neg hsome]
        rfl
      rw [hrun]
      exact .refl s
  | inputPoll =>
    have hpolled : Served s { s with calls := s.calls ++ [.inputState 0] ++ [.inputState 1] } :=
      (Served.host s rfl).trans (.host _ rfl)
    cases ports with
    | none => exact hpolled
    | some ports =>
      exact hpolled.trans
        (.edit _ (fun i => { i with input0 := ports.1, input1 := ports.2 }) rfl rfl)
  | inputState port device index id => exact .refl s
  | currentFramebuffer => exact .refl s
  | draw texels =>
    refine .edit s (fun i => { i with hw := i.hw.map (·.draw texels) }) rfl ?_
    exact Option.isSome_map

/-- A function of the libretro core only makes callbacks. -/
theorem runEntry_served (ports : Option (InputState × InputState)) (entry : Entry Λ α)
    (s : Frontend Λ) : Served s ((runEntry P ports entry).run s).2 :=
  (Program.runIn_rel (answer P ports) Served.refl Served.trans (answer_served P ports)
    (entry s.inst.library) s).trans (.edit _ (fun i => { i with library := _ }) rfl rfl)

/-! ### A frame -/

/-- Without a game `sh_run_frame` does nothing. -/
theorem shRunFrame_idle {s : Frontend Λ} (h : s.inst.gameLoaded = false)
    (port0 port1 : InputState) :
    (shRunFrame P port0 port1).run s = ((), s) := by
  show StateT.run (if s.inst.gameLoaded = true then _ else _ : FrontendM Λ Unit) s = _
  rw [h]
  rfl

/-- The context of a core that draws with OpenGL is made current, if that works. -/
def Frontend.current (s : Frontend Λ) : Frontend Λ :=
  if s.inst.hw.isSome then { s with log := .makeCurrent (P.makeCurrent s.log) :: s.log } else s

/-- With a game `sh_run_frame` runs one frame of the libretro core. -/
theorem shRunFrame_run {s : Frontend Λ} (h : s.inst.gameLoaded = true) (port0 port1 : InputState) :
    (shRunFrame P port0 port1).run s =
      ((), { ((runEntry P (some (port0, port1)) P.library.run).run (s.current P)).2 with
        log :=
          .run :: ((runEntry P (some (port0, port1)) P.library.run).run
            (s.current P)).2.log }) := by
  show StateT.run (if s.inst.gameLoaded = true then _ else _ : FrontendM Λ Unit) s = _
  rw [if_pos h, Frontend.current]
  by_cases hhw : s.inst.hw.isSome = true
  · rw [if_pos hhw, if_pos hhw]
    rfl
  · rw [if_neg hhw, if_neg hhw]
    rfl

end RetroPark.LibretroShim
