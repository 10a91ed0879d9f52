import SecureDebug.Api
import SecureDebug.Interaction.Steps

/-! Handles over time. A handle is the address of the one live object, so a closed handle stays
rejected until the allocator gives its address to a later session. -/

namespace SecureDebug
open Interaction Program

structure ApiCalled where
  call : ApiCall
  trace : Trace
  res : SDMReturnCode

def ApiStep (psa : PsaAdac) (gSDMImpl : Option LiveImpl) (c : ApiCalled)
    (gSDMImpl' : Option LiveImpl) : Prop :=
  ∃ fuel, Run (c.call.perform psa fuel gSDMImpl) c.trace (.ok (c.res, gSDMImpl'))

def newAddress : Event Host → Option SDMHandle
  | ⟨.newImpl, address⟩ => some address
  | _ => none

def ApiCalled.given (c : ApiCalled) : List SDMHandle :=
  if c.res = .success then c.trace.filterMap newAddress else []

/-- No object lives at the address. -/
def Dead (handle : SDMHandle) (gSDMImpl : Option LiveImpl) : Prop :=
  ∀ live, gSDMImpl = some live → live.handle ≠ handle

section
variable {psa : PsaAdac} {fuel : Nat} {gSDMImpl gSDMImpl' : Option LiveImpl} {handle : SDMHandle}
  {c : ApiCalled} {l : Trace}

theorem dead_none : Dead handle none := fun _ h => by cases h

theorem dead_some {live : LiveImpl} : Dead handle (some live) ↔ live.handle ≠ handle := by
  constructor
  · intro h
    exact h live rfl
  · intro h live' hlive
    rwa [← Option.some.inj hlive]

/-- What `SDMOpen` stores behind `handle` is the address of the object that is live from then on,
and one that `new` returned. -/
theorem sdmOpen_given {pointer : Option SDMHandle} {params : Option SDMOpenParameters}
    {out : OpenResult} (h : Run (sdmOpen fuel gSDMImpl pointer params) l (.ok out))
    (hres : out.res = .success) : ∃ live, out.gSDMImpl = some live ∧
      out.handle = some live.handle ∧ live.handle ∈ l.filterMap newAddress := by
  rw [sdmOpen] at h
  split_ifs at h with hparams hlive
  · obtain ⟨-, hout⟩ := run_pure.mp h
    rw [Except.ok.inj hout] at hres
    cases hres
  · obtain ⟨-, hout⟩ := run_pure.mp h
    rw [Except.ok.inj hout] at hres
    cases hres
  · obtain ⟨address, l₁, l₂, rfl, hnew, hrest⟩ := run_bind_ok.mp h
    obtain ⟨⟨code, impl⟩, l₃, l₄, rfl, -, hrest⟩ := run_bind_ok.mp hrest
    dsimp only at hrest
    split_ifs at hrest with hcode
    · obtain ⟨-, hout⟩ := run_pure.mp hrest
      rw [Except.ok.inj hout] at hres
      exact absurd hres hcode
    · obtain ⟨_, l₅, l₆, rfl, -, hret⟩ := run_bind_ok.mp hrest
      obtain ⟨-, hout⟩ := run_pure.mp hret
      obtain ⟨ans, hl, hans⟩ := run_perform.mp hnew
      rw [Except.ok.inj hout]
      refine ⟨⟨address, impl⟩, rfl, rfl, ?_⟩
      rw [hl, Except.ok.inj hans]
      exact List.mem_cons_self

theorem ApiStep.given_of_opened {live : LiveImpl} (h : ApiStep psa gSDMImpl c (some live))
    (hopen : c.call.isOpen = true) (hres : c.res = .success) : live.handle ∈ c.given := by
  obtain ⟨fuel, hrun⟩ := h
  obtain ⟨call, l, res⟩ := c
  cases call with
  | sdmOpen pointer params =>
    obtain ⟨out, l₁, l₂, hl, hperform, hret⟩ := run_bind_ok.mp hrun
    obtain ⟨rfl, hcode, hlive⟩ := run_pure_pair.mp hret
    obtain ⟨live', hlive', -, hmem⟩ := sdmOpen_given hperform (hcode.symm.trans hres)
    rw [ApiCalled.given, if_pos hres]
    rw [List.append_nil] at hl
    rw [Option.some.inj (hlive.trans hlive')]
    exact hl ▸ hmem
  | _ => cases hopen

/-- A dead handle comes to life only when it is given out anew. -/
theorem ApiStep.dead (h : ApiStep psa gSDMImpl c gSDMImpl') (hdead : Dead handle gSDMImpl)
    (hfresh : handle ∉ c.given) : Dead handle gSDMImpl' := by
  obtain ⟨fuel, hrun⟩ := h
  cases effect_of_run hrun with
  | ignored => exact hdead
  | refused => exact dead_none
  | opened hopen hres =>
    rw [dead_some]
    intro heq
    apply hfresh
    rw [← heq]
    exact ApiStep.given_of_opened ⟨fuel, hrun⟩ hopen hres
  | used =>
    rw [dead_some] at hdead
    exact dead_some.mpr hdead
  | closed => exact dead_none

theorem ApiStep.dead_of_close (h : ApiStep psa gSDMImpl c gSDMImpl')
    (hclose : c.call = .sdmClose handle) : Dead handle gSDMImpl' := by
  obtain ⟨fuel, hrun⟩ := h
  rw [hclose] at hrun
  cases effect_of_run hrun with
  | ignored _ _ hother =>
    intro live hlive heq
    rw [← heq] at hother
    exact hother live hlive rfl
  | refused => exact dead_none
  | opened hopen => cases hopen
  | used hhandle hother =>
    rw [Option.some.inj hhandle] at hother
    exact absurd rfl hother
  | closed => exact dead_none

theorem dead_of_steps {calls : List ApiCalled} (h : Steps (ApiStep psa) gSDMImpl calls gSDMImpl')
    (hdead : Dead handle gSDMImpl) (hfresh : ∀ c ∈ calls, handle ∉ c.given) :
    Dead handle gSDMImpl' := by
  induction h with
  | nil s => exact hdead
  | cons hstep _ ih =>
    obtain ⟨hfirst, hrest⟩ := List.forall_mem_cons.mp hfresh
    exact ih (hstep.dead hdead hfirst) hrest

theorem run_of_dead {call : ApiCall} {r : Except Stop (SDMReturnCode × Option LiveImpl)}
    (hdead : Dead handle gSDMImpl) (hhandle : call.handle = some handle)
    (h : Run (call.perform psa fuel gSDMImpl) l r) :
    l = [] ∧ (r = .ok (.internalError, gSDMImpl) ∨ r = .ok (.invalidArgument, gSDMImpl)) := by
  cases gSDMImpl with
  | none =>
    have hreturn : l = [] ∧ r = .ok (.internalError, none) := by
      cases call with
      | sdmOpen => cases hhandle
      | _ => exact run_pure.mp h
    exact ⟨hreturn.1, .inl hreturn.2⟩
  | some live =>
    have hother : handle ≠ live.handle := (dead_some.mp hdead).symm
    have hreturn : l = [] ∧ r = .ok (.invalidArgument, some live) := by
      cases call with
      | sdmOpen => cases hhandle
      | sdmAuthenticate handle' =>
        rw [← Option.some.inj hhandle] at hother
        rw [ApiCall.perform, sdmAuthenticate, if_pos hother] at h
        exact run_pure.mp h
      | sdmResumeBoot handle' =>
        rw [← Option.some.inj hhandle] at hother
        rw [ApiCall.perform, sdmResumeBoot, if_pos hother] at h
        exact run_pure.mp h
      | sdmClose handle' =>
        rw [← Option.some.inj hhandle] at hother
        rw [ApiCall.perform, sdmClose, if_pos hother] at h
        exact run_pure.mp h
    exact ⟨hreturn.1, .inr hreturn.2⟩

end

/-! ### Scripted sessions -/

def scriptedAt (address : SDMHandle) : Machine Host (List AccessResult) where
  answer
    | .newImpl, script => (address, script)
    | c, script => scripted.answer c script

def openCall : ApiCall := .sdmOpen (some 0) (some allCallbacks)

/-- Opening a session with its object at `address`, on a target that identifies itself. -/
def sessionOut (address : SDMHandle) :
    Except Stop (SDMReturnCode × Option LiveImpl) × Trace × List AccessResult :=
  (scriptedAt address).exec (openCall.perform .standard 9 none)
    (ExternalComPortDriver.identifyScript ([flagIDA] ++ protocol ++ [flagEND]))

def opening (address : SDMHandle) : ApiCalled := ⟨openCall, (sessionOut address).2.1, .success⟩

def closing (address : SDMHandle) : ApiCalled := ⟨.sdmClose address, [], .success⟩

def sessionParts (out : SDMReturnCode × Option LiveImpl) :
    SDMReturnCode × Option (SDMHandle × Bool) :=
  (out.1, out.2.map fun live => (live.handle, live.impl.mOpen))

theorem step_opening (address : SDMHandle)
    (h : (sessionOut address).1.map sessionParts = .ok (.success, some (address, true))) :
    ∃ impl, impl.mOpen = true ∧
      ApiStep .standard none (opening address) (some ⟨address, impl⟩) := by
  have hrun := (scriptedAt address).exec_run (openCall.perform .standard 9 none)
    (ExternalComPortDriver.identifyScript ([flagIDA] ++ protocol ++ [flagEND]))
  cases hout : (sessionOut address).1 with
  | error e =>
    rw [hout] at h
    cases h
  | ok out =>
    obtain ⟨res, gSDMImpl⟩ := out
    rw [hout] at h
    obtain ⟨hres, hlive⟩ := Prod.mk.inj (Except.ok.inj h)
    obtain ⟨⟨handle, impl⟩, rfl, hparts⟩ := Option.map_eq_some_iff.mp hlive
    obtain ⟨rfl, hopen⟩ := Prod.mk.inj hparts
    dsimp only at hres
    rw [hres] at hout
    rw [show (scriptedAt handle).exec _ _ = sessionOut handle from rfl, hout] at hrun
    exact ⟨impl, hopen, 9, hrun⟩

theorem step_closing {psa : PsaAdac} {address : SDMHandle} {impl : SecureDebugManagerImpl}
    (hopen : impl.mOpen = true) : ApiStep psa (some ⟨address, impl⟩) (closing address) none := by
  refine ⟨0, ?_⟩
  show Run (sdmClose 0 (some ⟨address, impl⟩) address) [] (.ok (.success, none))
  have hclose : impl.sdmClose 0 = pure (.success, { impl with mOpen := false }) := by
    rw [SecureDebugManagerImpl.sdmClose, hopen]
    rfl
  have hhandle : ¬address ≠ (LiveImpl.mk address impl).handle := not_not.mpr rfl
  rw [sdmClose]
  dsimp only
  rw [if_neg hhandle, hclose]
  exact .ret _

section
variable {psa : PsaAdac} {fuel : Nat} {gSDMImpl : Option LiveImpl} {handle : SDMHandle}
  {c : ApiCalled} {l : Trace}

/-- A closed handle is rejected by every later call, also when another session is open by then, as
long as no session since was given its address. -/
theorem sdmApi_closedHandle {pre mid : List ApiCalled} {call : ApiCall}
    {r : Except Stop (SDMReturnCode × Option LiveImpl)}
    (h : Steps (ApiStep psa) none (pre ++ c :: mid) gSDMImpl) (hclose : c.call = .sdmClose handle)
    (hfresh : ∀ c ∈ mid, handle ∉ c.given) (hhandle : call.handle = some handle)
    (hrun : Run (call.perform psa fuel gSDMImpl) l r) :
    l = [] ∧ (r = .ok (.internalError, gSDMImpl) ∨ r = .ok (.invalidArgument, gSDMImpl)) := by
  obtain ⟨before, -, hrest⟩ := steps_append.mp h
  obtain ⟨closed, hstep, hmid⟩ := steps_cons.mp hrest
  have hdead := dead_of_steps hmid (hstep.dead_of_close hclose) hfresh
  exact run_of_dead hdead hhandle hrun

end

theorem sdmApi_closedHandle_second : ∃ impl r,
    Run ((ApiCall.sdmResumeBoot 1).perform .standard 9 (some ⟨2, impl⟩)) [] r ∧
      (r = .ok (.internalError, some ⟨2, impl⟩) ∨ r = .ok (.invalidArgument, some ⟨2, impl⟩)) := by
  obtain ⟨first, hfirst, hopen⟩ := step_opening 1 (by decide +kernel)
  obtain ⟨second, -, hreopen⟩ := step_opening 2 (by decide +kernel)
  have hsteps : Steps (ApiStep .standard) none ([opening 1] ++ closing 1 :: [opening 2])
      (some ⟨2, second⟩) := .cons hopen (.cons (step_closing hfirst) (.cons hreopen (.nil _)))
  have hfresh : ∀ c ∈ [opening 2], (1 : SDMHandle) ∉ c.given := by decide +kernel
  have hrun : Run ((ApiCall.sdmResumeBoot 1).perform .standard 9 (some ⟨2, second⟩)) []
      (.ok (.invalidArgument, some ⟨2, second⟩)) := .ret _
  exact ⟨second, _, hrun, (sdmApi_closedHandle hsteps rfl hfresh rfl hrun).2⟩

/-- An allocator that reuses the address of a closed session brings its handle back to life. -/
theorem sdmApi_closedHandle_reused : ¬∀ (psa : PsaAdac) (fuel : Nat) (gSDMImpl : Option LiveImpl)
    (handle : SDMHandle) (pre mid : List ApiCalled) (c : ApiCalled) (call : ApiCall) (l : Trace)
    (r : Except Stop (SDMReturnCode × Option LiveImpl)),
    Steps (ApiStep psa) none (pre ++ c :: mid) gSDMImpl → (∃ opened ∈ pre, handle ∈ opened.given) →
    c.call = .sdmClose handle → call.handle = some handle →
    Run (call.perform psa fuel gSDMImpl) l r →
    l = [] ∧ (r = .ok (.internalError, gSDMImpl) ∨ r = .ok (.invalidArgument, gSDMImpl)) := by
  intro hdead
  obtain ⟨impl, himpl, hopen⟩ := step_opening 1 (by decide +kernel)
  have hsteps : Steps (ApiStep .standard) none ([opening 1] ++ closing 1 :: [opening 1])
      (some ⟨1, impl⟩) := .cons hopen (.cons (step_closing himpl) (.cons hopen (.nil _)))
  have hgiven : ∃ opened ∈ [opening 1], (1 : SDMHandle) ∈ opened.given := by decide +kernel
  have hrun : Run ((ApiCall.sdmResumeBoot 1).perform .standard 9 (some ⟨1, impl⟩)) []
      (.ok (.success, some ⟨1, impl⟩)) := .ret _
  obtain ⟨-, hres⟩ := hdead _ _ _ _ _ _ _ _ _ _ hsteps hgiven rfl rfl hrun
  rcases hres with hres | hres
  · cases hres
  · cases hres

end SecureDebug
