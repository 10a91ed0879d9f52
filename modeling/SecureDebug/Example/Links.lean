import SecureDebug.Example.Defs

/-! The debug connections of the example: what is opened is closed again, in the opposite order and
on every path, and nothing is used that is not open. -/

namespace SecureDebug.Example
open Interaction Program

/-- What is open: the RDDI handle, the connection to the debug vehicle and those to devices, the
latest first. -/
structure Links where
  rddi : Option RDDIHandle := none
  connected : Bool := false
  devices : List Int := []
  deriving DecidableEq, Repr

def Links.Serves (s : Links) (handle : RDDIHandle) : Prop := s.rddi = some handle ∧ s.connected = true

instance (s : Links) (handle : RDDIHandle) : Decidable (s.Serves handle) :=
  inferInstanceAs (Decidable (_ ∧ _))

/-- Objects to a call on a handle or a device that is not open, to opening either twice, and to
closing anything but what was opened last. Whatever closing returns, it is not open any more. -/
def links : Monitor Rddi Links
  | s, ⟨.rddiOpen, ((result, handle) : RddiResult × RDDIHandle)⟩ =>
    if s = {} then some (if result = .success then { rddi := some handle } else s) else none
  | s, ⟨.rddiClose handle, _⟩ => if s = { rddi := some handle } then some {} else none
  | s, ⟨.configInfoOpenFileAndRetarget handle _ _, _⟩ =>
    if s = { rddi := some handle } then some s else none
  | s, ⟨.debugConnect handle, (result : RddiResult)⟩ =>
    if s = { rddi := some handle } then
      some (if result = .success then { s with connected := true } else s)
    else none
  | s, ⟨.debugDisconnect handle, _⟩ =>
    if s = { rddi := some handle, connected := true } then some { rddi := some handle } else none
  | s, ⟨.debugOpenConn handle device, ((result, _) : RddiResult × UInt32)⟩ =>
    if s.Serves handle ∧ device ∉ s.devices then
      some (if result = .success then { s with devices := device :: s.devices } else s)
    else none
  | s, ⟨.debugCloseConn handle device, _⟩ =>
    if s.Serves handle ∧ s.devices.head? = some device then
      some { s with devices := s.devices.tail }
    else none
  | s, ⟨.debugRegReadBlock handle device _, _⟩ =>
    if s.Serves handle ∧ device ∈ s.devices then some s else none
  | s, ⟨.debugRegWriteBlock handle device _ _, _⟩ =>
    if s.Serves handle ∧ device ∈ s.devices then some s else none
  | s, ⟨.debugRegRWList handle device _, _⟩ =>
    if s.Serves handle ∧ device ∈ s.devices then some s else none
  | s, ⟨.debugSystemReset handle _, _⟩ => if s.Serves handle then some s else none
  | s, ⟨.fgets _, _⟩ => some s
  | s, ⟨.library _, _⟩ => some s

def Links.base (handle : RDDIHandle) : Links := { rddi := some handle, connected := true }

def Globals.working (g : Globals) : Links :=
  { Links.base g.gRDDIHandle with devices := [g.gCOMPortDeviceIndex] }

def Globals.resetting (g : Globals) : Links :=
  { Links.base g.gRDDIHandle with devices := [g.gDAPIndex, g.gCOMPortDeviceIndex] }

namespace Globals
variable {g : Globals}

theorem abides_readCtrlStat : Abides links (fun _ s => s = g.resetting) g.readCtrlStat g.resetting :=
  abides_perform fun _ => ⟨_, if_pos ⟨⟨rfl, rfl⟩, List.mem_cons_self⟩, rfl⟩

theorem abides_writeCtrlStat (ctrlStat : UInt32) :
    Abides links (fun _ s => s = g.resetting) (g.writeCtrlStat ctrlStat) g.resetting :=
  abides_perform fun _ => ⟨_, if_pos ⟨⟨rfl, rfl⟩, List.mem_cons_self⟩, rfl⟩

theorem abides_closeDAP : Abides links (fun _ s => s = g.working) g.closeDAP g.resetting :=
  abides_perform fun _ => ⟨_, if_pos ⟨⟨rfl, rfl⟩, rfl⟩, rfl⟩

theorem abides_ackLoop (mask value : UInt32) (left : Nat) (ctrlStat : UInt32) (result : RddiResult) :
    Abides links (fun _ s => s = g.resetting) (g.ackLoop mask value left ctrlStat result)
      g.resetting := by
  induction left generalizing ctrlStat result with
  | zero =>
    rw [ackLoop]
    exact abides_ite (fun _ => abides_pure rfl) fun _ => abides_pure rfl
  | succ left ih =>
    rw [ackLoop]
    refine abides_ite (fun _ => ?_) fun _ => abides_pure rfl
    refine abides_readCtrlStat.bind fun read s hs => ?_
    rw [hs]
    exact ih read.2 read.1

theorem abides_waitForACK (mask value ctrlStat : UInt32) :
    Abides links (fun _ s => s = g.resetting) (g.waitForACK mask value ctrlStat) g.resetting := by
  refine (abides_ackLoop mask value _ ctrlStat .success).bind fun out s hs => ?_
  exact abides_pure hs

theorem abides_abandon (result : RddiResult) : Abides links (fun _ s => s = g.working)
    (do let _ ← g.closeDAP; return result) g.resetting :=
  abides_closeDAP.bind fun _ _ hs => abides_pure hs

theorem abides_systemResetStart (hdap : g.gDAPIndex ≠ g.gCOMPortDeviceIndex) :
    Abides links (fun _ s => s = g.working) g.systemResetStart g.working := by
  rw [systemResetStart]
  refine abides_ite (fun _ => abides_pure rfl) fun _ => ?_
  have hopen : Abides links (fun opened s => s = if opened.1 = .success then g.resetting else g.working)
      (callRddi (.debugOpenConn g.gRDDIHandle g.gDAPIndex)) g.working := by
    -- the only device open is the COM port
    have hnew : g.gDAPIndex ∉ g.working.devices := fun hmem => hdap (List.mem_singleton.mp hmem)
    exact abides_perform fun opened => ⟨_, if_pos ⟨⟨rfl, rfl⟩, hnew⟩, rfl⟩
  refine hopen.bind fun opened s hs => ?_
  rw [hs]
  refine abides_ite (fun hfailed => ?_) fun hopened => ?_
  · rw [if_neg hfailed]
    exact abides_pure rfl
  rw [if_pos (not_not.mp hopened)]
  refine abides_readCtrlStat.bind fun read s hs => ?_
  rw [hs]
  refine abides_ite (fun _ => abides_abandon _) fun _ => ?_
  refine (abides_writeCtrlStat _).bind fun down s hs => ?_
  rw [hs]
  refine abides_ite (fun _ => abides_abandon _) fun _ => ?_
  refine (abides_waitForACK _ _ _).bind fun low s hs => ?_
  rw [hs]
  refine abides_ite (fun _ => abides_abandon _) fun _ => ?_
  have hassert : Abides links (fun _ s => s = g.resetting)
      (callRddi (.debugSystemReset g.gRDDIHandle .assert)) g.resetting :=
    abides_perform fun _ => ⟨_, if_pos ⟨rfl, rfl⟩, rfl⟩
  refine hassert.bind fun held s hs => ?_
  rw [hs]
  refine abides_ite (fun _ => abides_abandon _) fun _ => ?_
  refine (abides_writeCtrlStat _).bind fun up s hs => ?_
  rw [hs]
  refine abides_ite (fun _ => abides_abandon _) fun _ => ?_
  refine (abides_waitForACK _ _ _).bind fun high s hs => ?_
  rw [hs]
  exact abides_ite (fun _ => abides_abandon _) fun _ => abides_closeDAP

theorem abides_systemResetFinish :
    Abides links (fun _ s => s = g.working) g.systemResetFinish g.working :=
  abides_perform fun _ => ⟨_, if_pos ⟨rfl, rfl⟩, rfl⟩

theorem abides_registerAccess (device : Bool) (accesses : Option (List CallbackAccess))
    (accessesCompleted : Option Nat) : Abides links (fun _ s => s = g.working)
      (g.registerAccess device accesses accessesCompleted) g.working := by
  cases accesses with
  | none => exact abides_ite (fun _ => abides_pure rfl) fun _ => abides_pure rfl
  | some accesses =>
    rw [registerAccess]
    refine abides_ite (fun _ => abides_pure rfl) fun _ => ?_
    refine abides_ite (fun _ => abides_pure rfl) fun _ => ?_
    refine abides_ite (fun _ => abides_pure rfl) fun _ => ?_
    refine abides_ite (fun _ => abides_pure rfl) fun _ => ?_
    refine abides_call fun done => ⟨_, if_pos ⟨⟨rfl, rfl⟩, List.mem_cons_self⟩, ?_⟩
    exact abides_ite (fun _ => abides_pure rfl) fun _ => abides_pure rfl

theorem abides_library (c : HostCall) :
    Abides links (fun _ s => s = g.working) (callRddi (.library c)) g.working :=
  abides_perform fun _ => ⟨_, rfl, rfl⟩

end Globals

theorem abides_presentElements (g : Globals) (elements : List SDMFormElement) :
    Abides links (fun _ s => s = g.working) (presentElements elements) g.working := by
  induction elements with
  | nil => exact abides_pure rfl
  | cons element elements ih =>
    rw [presentElements]
    refine abides_ite (fun _ => abides_pure rfl) fun _ => ?_
    refine abides_call fun userInput => ⟨_, rfl, ?_⟩
    cases userInput with
    | none => exact abides_pure rfl
    | some userInput =>
      refine abides_ite (fun _ => abides_pure rfl) fun _ => ?_
      refine ih.bind fun out s hs => ?_
      exact abides_pure hs

theorem Globals.abides_callbacks {g : Globals} (hdap : g.gDAPIndex ≠ g.gCOMPortDeviceIndex)
    (c : HostCall) : Abides links (fun _ s => s = g.working) (g.callbacks c) g.working := by
  cases c with
  | registerAccess accesses =>
    exact (abides_registerAccess _ _ _).bind fun _ _ hs => abides_pure hs
  | resetStart =>
    rw [callbacks, resetStart]
    refine abides_ite (fun _ => abides_pure rfl) fun _ => ?_
    refine (abides_systemResetStart hdap).bind fun result s hs => ?_
    exact abides_ite (fun _ => abides_pure hs) fun _ => abides_pure hs
  | resetEnd =>
    rw [callbacks, resetFinish]
    refine abides_ite (fun _ => abides_pure rfl) fun _ => ?_
    refine abides_systemResetFinish.bind fun result s hs => ?_
    exact abides_ite (fun _ => abides_pure hs) fun _ => abides_pure hs
  | updateProgress => exact abides_pure rfl
  | presentForm form => exact abides_presentElements g form.elements
  | psaAdacInit => exact abides_library _
  | importPrivateKey => exact abides_library _
  | loadTrustChain => exact abides_library _
  | psaAdacSignToken => exact abides_library _
  | splitTlvStatic => exact abides_library _
  | uninitialised => exact abides_library _
  | newImpl => exact abides_library _

/-! ### The program -/

theorem links_rddiOpen (opened : RddiResult × RDDIHandle) : links {} ⟨.rddiOpen, opened⟩ =
    some (if opened.1 = .success then { rddi := some opened.2 } else {}) := rfl

theorem abides_rddiInitialize (sdf address : String) :
    Abides links (fun out s => s = if out.1 = .success then Links.base out.2 else {})
      (rddiInitialize sdf address) {} := by
  rw [rddiInitialize]
  refine abides_call fun opened => ⟨_, links_rddiOpen opened, ?_⟩
  refine abides_ite (fun hfailed => ?_) fun hopened => ?_
  · rw [if_neg hfailed]
    exact abides_pure (if_neg hfailed).symm
  rw [if_pos (not_not.mp hopened)]
  -- the handle is given up only where a failure is returned
  have hclose (result : RddiResult) (hresult : result ≠ .success) :
      Abides links (fun out s => s = if out.1 = .success then Links.base out.2 else {})
        (do let _ ← callRddi (.rddiClose opened.2); return (result, opened.2))
        { rddi := some opened.2 } := by
    refine abides_call fun _ => ⟨_, if_pos rfl, ?_⟩
    exact abides_pure (if_neg hresult).symm
  refine abides_call fun configured => ⟨_, if_pos rfl, ?_⟩
  refine abides_ite (fun hfailed => hclose _ hfailed) fun _ => ?_
  refine abides_call fun connected => ⟨_, if_pos rfl, ?_⟩
  refine abides_ite (fun hfailed => ?_) fun hconnected => ?_
  · rw [if_neg hfailed]
    exact hclose _ hfailed
  · rw [if_pos (not_not.mp hconnected)]
    exact abides_pure rfl

theorem Globals.abides_rddiFinalize (g : Globals) :
    Abides links (fun _ s => s = {}) g.rddiFinalize (Links.base g.gRDDIHandle) := by
  refine abides_call fun _ => ⟨_, if_pos rfl, ?_⟩
  refine abides_call fun _ => ⟨_, if_pos rfl, ?_⟩
  exact abides_pure rfl

theorem Globals.abides_windDown (g : Globals) (code : ExitCode) :
    Abides links (fun _ s => s = {}) (g.windDown code) g.working := by
  refine abides_call fun _ => ⟨_, if_pos ⟨⟨rfl, rfl⟩, rfl⟩, ?_⟩
  exact g.abides_rddiFinalize.bind fun _ _ hs => abides_pure hs

theorem abides_main {argv : List String} (psa : PsaAdac) (fuel : Nat) (sdmHandle : SDMHandle)
    (hdap : ∀ dap ∈ argv[3]?, ∀ com ∈ argv[4]?, atoi dap ≠ atoi com) :
    Abides links (fun _ s => s = {}) (main psa fuel sdmHandle argv) {} := by
  unfold main
  split
  · rename_i name address sdf dap com
    have hne : atoi dap ≠ atoi com := hdap dap rfl com rfl
    refine (abides_rddiInitialize sdf address).bind fun out s hs => ?_
    rw [hs]
    refine abides_ite (fun hfailed => ?_) fun hopened => ?_
    · rw [if_neg hfailed]
      exact abides_pure rfl
    rw [if_pos (not_not.mp hopened)]
    refine abides_call fun opened => ⟨_, if_pos ⟨⟨rfl, rfl⟩, List.not_mem_nil⟩, ?_⟩
    refine abides_ite (fun hfailed => ?_) fun hopened => ?_
    · rw [if_neg hfailed]
      exact (Globals.abides_rddiFinalize _).bind fun _ _ hs => abides_pure hs
    rw [if_pos (not_not.mp hopened)]
    split
    · refine (abides_serve (K := fun s => s = Globals.working ⟨atoi dap, atoi com, out.2⟩) _
        (fun c s hs => ?_) rfl).bind fun code s hs => ?_
      · rw [hs]
        exact Globals.abides_callbacks hne c
      · rw [hs]
        exact Globals.abides_windDown _ code
    · exact Globals.abides_windDown _ _
  · exact abides_pure rfl

/-- Nothing is used that is not open, on any path and up to any point at which the program may be
stopped; and when it returns all that was opened is closed, each connection once and the latest
first. The DAP and the COM port are different devices: of one device the reset would close the
connection that the session goes on to use. -/
theorem main_links {argv : List String} {psa : PsaAdac} {fuel : Nat} {sdmHandle : SDMHandle}
    {l : List (Event Rddi)} {r : Except Stop ExitCode}
    (hdap : ∀ dap ∈ argv[3]?, ∀ com ∈ argv[4]?, atoi dap ≠ atoi com)
    (h : Run (main psa fuel sdmHandle argv) l r) :
    ∃ s, links.follow {} l = some s ∧ ∀ code, r = .ok code → s = {} :=
  (abides_main psa fuel sdmHandle hdap).follow h

theorem main_links_sample : links.follow {} sampleRun.2.1 = some {} := by
  obtain ⟨s, hs, hclosed⟩ := main_links (fun dap hdap com hcom => by
    cases hdap
    cases hcom
    decide +kernel) run_sampleRun
  rw [hs, hclosed .success rfl]

end SecureDebug.Example
