import SecureDebug.Example.Bench
import SecureDebug.Example.Calls
import SecureDebug.Manager.Stops

/-! What a run of the example shows at the probe, and how it can end: the protocol of the library, from
the reset to the answer to the token, goes over the COM port as the library plays it. -/

namespace SecureDebug.Example
open Interaction Program ExternalComPortDriver SecureDebugManagerImpl Globals

/-! ### What the probe sees -/

def portOp (architecture : SDMDebugArchitecture) (ok : Bool) (op : RddiRegAccOp)
    (done : RddiResult × UInt32) : List Observation :=
  if op.rwFlag = 0 then
    if ok ∧ op.registerID = registerID architecture regDR then [.read done.2.toUInt8] else []
  else if op.registerID = registerID architecture regDR ∨
      op.registerID = registerID architecture regDBR then
    [if done.1 = .success then .wrote op.registerValue.toUInt8 ok
      else .offered op.registerValue.toUInt8]
  else []

/-- `SDMReturnCode_InternalError` is what the callbacks for resets make of a failure. -/
def resetCode (result : RddiResult) : SDMReturnCode :=
  if result ≠ .success then .internalError else .success

def portEvent (architecture : SDMDebugArchitecture) : Event Rddi → List Observation
  | ⟨.debugRegRWList _ _ ops, (out : RddiResult × Vector (RddiResult × UInt32) _)⟩ =>
    (List.zipWith (portOp architecture (out.1 = .success && out.2.toList.all (·.1 = .success)))
      ops out.2.toList).flatten
  | ⟨.debugSystemReset _ .assert, (result : RddiResult)⟩ => [.resetStart (resetCode result)]
  | ⟨.debugSystemReset _ .deassert, (result : RddiResult)⟩ => [.resetEnd (resetCode result)]
  | _ => []

/-- The bytes that go over the COM port and the resets, in order. -/
def portTraffic (architecture : SDMDebugArchitecture) (l : List (Event Rddi)) : List Observation :=
  l.flatMap (portEvent architecture)

section
variable {architecture : SDMDebugArchitecture} {g : Globals} {l l' : List (Event Rddi)}

theorem portTraffic_append :
    portTraffic architecture (l ++ l') = portTraffic architecture l ++ portTraffic architecture l' :=
  List.flatMap_append

theorem portEvent_of_kind {e : Event Rddi} (hport : e.call.kind ≠ .port)
    (hreset : e.call.kind ≠ .reset) : portEvent architecture e = [] := by
  obtain ⟨c, ans⟩ := e
  cases c with
  | debugRegRWList => exact absurd rfl hport
  | debugSystemReset => exact absurd rfl hreset
  | _ => rfl

section
variable {α : Type} {p : Client α} {r : Except Stop α} {kinds : List CallKind} {s : List Observation}

theorem portTraffic_of_uses (hp : Uses kinds p) (hport : .port ∉ kinds) (hreset : .reset ∉ kinds)
    (h : Run p l r) : portTraffic architecture l = [] := by
  refine List.flatMap_eq_nil_iff.mpr fun e he => ?_
  refine portEvent_of_kind (fun hk => hport ?_) fun hk => hreset ?_
  · exact hk ▸ hp l r h e he
  · exact hk ▸ hp l r h e he

abbrev recorded (architecture : SDMDebugArchitecture) : Monitor Rddi (List Observation) :=
  .record (portEvent architecture)

theorem recorded_of_uses (hp : Uses kinds p) (hport : .port ∉ kinds) (hreset : .reset ∉ kinds) :
    Abides (recorded architecture) (fun _ t => t = s) p s := by
  refine abides_of_makes (rig scripted) (0, []) hp fun c ans hc => ?_
  have hsilent : portEvent architecture ⟨c, ans⟩ = [] :=
    portEvent_of_kind (fun hk => hport (hk ▸ hc)) fun hk => hreset (hk ▸ hc)
  rw [recorded, Monitor.record, hsilent, List.append_nil]

end

/-! ### Accesses -/

theorem registerID_SR_ne_DR : registerID architecture regSR ≠ registerID architecture regDR := by
  cases architecture with
  | armADIv5 => decide
  | armADIv6 => decide

theorem portOp_status (done : RddiResult × UInt32) :
    portOp architecture true (readOp architecture regSR) done = [] := by
  have hflag : (readOp architecture regSR).rwFlag = 0 := rfl
  rw [portOp, if_pos hflag, if_neg fun h => registerID_SR_ne_DR h.2]

theorem portOp_read (done : RddiResult × UInt32) :
    portOp architecture true (readOp architecture regDR) done = [.read done.2.toUInt8] := by
  have hflag : (readOp architecture regDR).rwFlag = 0 := rfl
  have hreg : (readOp architecture regDR).registerID = registerID architecture regDR := rfl
  rw [portOp, if_pos hflag, if_pos ⟨rfl, hreg⟩]

theorem portOp_write {block : Bool} {byte : UInt8} {ok : Bool} {done : RddiResult × UInt32}
    (hdone : done.1 = .success) :
    portOp architecture ok (opOf ((portDriver architecture).writeAccess block byte)) done =
      [.wrote byte ok] := by
  have hreg : (opOf ((portDriver architecture).writeAccess block byte)).registerID =
      registerID architecture regDR ∨
        (opOf ((portDriver architecture).writeAccess block byte)).registerID =
          registerID architecture regDBR := by
    cases block with
    | false => exact .inl rfl
    | true => exact .inr rfl
  have hflag : (opOf ((portDriver architecture).writeAccess block byte)).rwFlag ≠ 0 := Nat.one_ne_zero
  rw [portOp, if_neg hflag, if_pos hreg, if_pos hdone]
  show [Observation.wrote ((portDriver architecture).writeAccess block byte).value.toUInt8 ok] = _
  rw [toUInt8_writeAccess]

theorem zipWith_portOp_writes {block : Bool} {bytes : List UInt8} {done : List (RddiResult × UInt32)}
    (hlen : done.length = bytes.length) (hdone : ∀ d ∈ done, d.1 = .success) :
    (List.zipWith (portOp architecture true)
      (bytes.map fun byte => opOf ((portDriver architecture).writeAccess block byte)) done).flatten =
      bytes.map (.wrote · true) := by
  induction bytes generalizing done with
  | nil => rw [List.map_nil, List.zipWith_nil_left, List.flatten_nil, List.map_nil]
  | cons byte bytes ih =>
    cases done with
    | nil => cases hlen
    | cons d done =>
      rw [List.forall_mem_cons] at hdone
      rw [List.map_cons, List.zipWith_cons_cons, List.flatten_cons,
        portOp_write hdone.1, ih (Nat.succ.inj hlen) hdone.2, List.map_cons]
      rfl

def PortAccesses (architecture : SDMDebugArchitecture) (accesses : List SDMRegisterAccess) : Prop :=
  accesses = [(portDriver architecture).statusAccess] ∨
    accesses = [(portDriver architecture).readAccess] ∨
    ∃ block, (portDriver architecture).Writes block accesses

variable {accesses : List SDMRegisterAccess} {a : AccessResult}

theorem exists_rwList (hne : accesses ≠ [])
    (hrun : Run (g.callbacks (.registerAccess accesses)) l (.ok a))
    (hgood : hostFails ⟨.registerAccess accesses, a⟩ = false) :
    ∃ ops, ∃ out : RddiResult × Vector (RddiResult × UInt32) ops.length, ops = accesses.map opOf ∧
      l = [⟨.debugRegRWList g.gRDDIHandle g.gCOMPortDeviceIndex ops, out⟩] ∧
      out.1 = .success ∧ (∀ d ∈ out.2.toList, d.1 = .success) ∧
      a = ⟨.success, accesses.length, out.2.toList.map Prod.snd⟩ := by
  rw [callbacks_registerAccess hne] at hrun
  obtain ⟨out, l₁, l₂, rfl, h₁, h₂⟩ := run_bind_ok.mp hrun
  obtain ⟨_, rfl, hout⟩ := run_perform.mp h₁
  obtain rfl := Except.ok.inj hout
  obtain ⟨rfl, rfl⟩ := run_pure_ok.mp h₂
  have hlen : out.2.toList.length = accesses.length := by
    rw [Vector.length_toList, List.length_map]
  obtain ⟨hres, hall⟩ := (hostFails_accessResult hlen).mp hgood
  refine ⟨_, out, rfl, List.append_nil _, hres, hall, ?_⟩
  rw [hres, accessResult_success hlen hall]

theorem portTraffic_access (hshape : PortAccesses architecture accesses)
    (hrun : Run (g.callbacks (.registerAccess accesses)) l (.ok a))
    (hgood : hostFails ⟨.registerAccess accesses, a⟩ = false) :
    portTraffic architecture l = (portDriver architecture).traffic [⟨.registerAccess accesses, a⟩] := by
  have hne : accesses ≠ [] := by
    rcases hshape with rfl | rfl | ⟨block, hwrites⟩
    · exact List.cons_ne_nil _ _
    · exact List.cons_ne_nil _ _
    · exact hwrites.1
  obtain ⟨ops, out, hops, rfl, hres, hdone, rfl⟩ := exists_rwList hne hrun hgood
  have hall : (out.1 = .success && out.2.toList.all (·.1 = .success)) = true := by
    rw [hres, decide_eq_true rfl, Bool.true_and, List.all_eq_true]
    exact fun d hd => decide_eq_true (hdone d hd)
  have hlen : out.2.toList.length = accesses.length := by
    rw [Vector.length_toList, hops, List.length_map]
  rw [portTraffic, List.flatMap_cons, List.flatMap_nil, List.append_nil, portEvent, hall]
  generalize out.2.toList = done at hdone hlen ⊢
  rcases hshape with rfl | rfl | ⟨block, -, hwrites⟩
  · obtain ⟨d, rfl⟩ := List.length_eq_one_iff.mp hlen
    have hstatus := (portDriver architecture).traffic_statusEvents [⟨.success, 1, [d.2]⟩]
    rw [hops]
    refine Eq.trans ?_ hstatus.symm
    show portOp architecture true (readOp architecture regSR) d ++ [] = []
    rw [portOp_status, List.append_nil]
  · obtain ⟨d, rfl⟩ := List.length_eq_one_iff.mp hlen
    have hread := (portDriver architecture).traffic_readEvent ⟨.success, 1, [d.2]⟩
    rw [hops]
    refine Eq.trans ?_ hread.symm
    show portOp architecture true (readOp architecture regDR) d ++ [] = _
    rw [portOp_read]
    rfl
  · obtain ⟨bytes, hbytes⟩ : ∃ bytes : List UInt8,
        accesses = bytes.map ((portDriver architecture).writeAccess block) :=
      ⟨accesses.map (·.value.toUInt8), by rw [List.map_map]; exact hwrites⟩
    subst hbytes
    rw [List.length_map] at hlen ⊢
    have htraffic := (portDriver architecture).traffic_writeEvent block bytes
      ⟨.success, bytes.length, done.map Prod.snd⟩
    have hok : writeResult bytes.length ⟨.success, bytes.length, done.map Prod.snd⟩ = .success :=
      writeResult_eq_success.mpr ⟨rfl, rfl⟩
    rw [hok, List.take_length, List.drop_length, List.map_nil, List.append_nil,
      decide_eq_true rfl] at htraffic
    refine Eq.trans ?_ htraffic.symm
    rw [hops, List.map_map]
    exact zipWith_portOp_writes hlen hdone

/-! ### Resets -/

theorem recorded_abandon {result : RddiResult} (s : List Observation) (hresult : result ≠ .success) :
    Abides (recorded architecture) (fun result t => result = .success → t = [.resetStart .success])
      (do let _ ← g.closeDAP; return result) s := by
  have hclose : Uses [.link] g.closeDAP := uses_call rfl
  exact (recorded_of_uses hclose (by decide) (by decide)).bind fun _ _ _ h => absurd h hresult

theorem recorded_systemResetStart : Abides (recorded architecture)
    (fun result t => result = .success → t = [.resetStart .success]) g.systemResetStart [] := by
  have hregister {α : Type} {p : Client α} {s : List Observation} (hp : Uses [.register] p) :
      Abides (recorded architecture) (fun _ t => t = s) p s :=
    recorded_of_uses hp (by decide) (by decide)
  have hopen : Uses [.link] (callRddi (.debugOpenConn g.gRDDIHandle g.gDAPIndex)) := uses_call rfl
  have hclose : Uses [.link] g.closeDAP := uses_call rfl
  refine abides_ite (fun _ h => by cases h) fun _ => ?_
  refine (recorded_of_uses hopen (by decide) (by decide)).bind fun opened s hs => ?_
  subst hs
  refine abides_ite (fun hne h => absurd h hne) fun _ => ?_
  refine (hregister (uses_call rfl)).bind fun read s hs => ?_
  subst hs
  refine abides_ite (fun hne => recorded_abandon _ hne) fun _ => ?_
  refine (hregister (uses_call rfl)).bind fun down s hs => ?_
  subst hs
  refine abides_ite (fun hne => recorded_abandon _ hne) fun _ => ?_
  refine (hregister (g.uses_waitForACK _ _ _)).bind fun low s hs => ?_
  subst hs
  refine abides_ite (fun _ => recorded_abandon _ (by decide)) fun _ => ?_
  intro held
  refine ⟨_, rfl, ?_⟩
  refine abides_ite (fun hne => recorded_abandon _ hne) fun hres => ?_
  refine (hregister (uses_call rfl)).bind fun up s hs => ?_
  subst hs
  refine abides_ite (fun hne => recorded_abandon _ hne) fun _ => ?_
  refine (hregister (g.uses_waitForACK _ _ _)).bind fun high s hs => ?_
  subst hs
  refine abides_ite (fun _ => recorded_abandon _ (by decide)) fun _ => ?_
  refine (recorded_of_uses hclose (by decide) (by decide)).mono fun _ t ht _ => ?_
  rw [ht]
  show [Observation.resetStart (resetCode held)] = _
  rw [resetCode, if_neg hres]

theorem portTraffic_resetStart (hrun : Run (g.callbacks .resetStart) l (.ok .success)) :
    portTraffic architecture l = [.resetStart .success] := by
  have habides : Abides (recorded architecture)
      (fun result t => result = .success → t = [.resetStart .success]) (g.resetStart .default) [] := by
    refine abides_ite (fun hother => absurd rfl hother.1) fun _ => ?_
    refine recorded_systemResetStart.bind fun result t ht => ?_
    exact abides_ite (fun _ h => by cases h) fun hres _ => ht (not_not.mp hres)
  obtain ⟨t, hfollow, ht⟩ := habides.follow hrun
  rw [follow_record, List.nil_append] at hfollow
  rw [portTraffic, Option.some.inj hfollow, ht .success rfl rfl]

theorem portTraffic_resetFinish (hrun : Run (g.callbacks .resetEnd) l (.ok .success)) :
    portTraffic architecture l = [.resetEnd .success] := by
  have habides : Abides (recorded architecture)
      (fun result t => result = .success → t = [.resetEnd .success]) (g.resetFinish .default) [] := by
    refine abides_ite (fun hother => absurd rfl hother.1) fun _ => ?_
    intro released
    refine ⟨_, rfl, ?_⟩
    refine abides_ite (fun _ h => by cases h) fun hres _ => ?_
    show [Observation.resetEnd (resetCode released)] = _
    rw [resetCode, if_neg hres]
  obtain ⟨t, hfollow, ht⟩ := habides.follow hrun
  rw [follow_record, List.nil_append] at hfollow
  rw [portTraffic, Option.some.inj hfollow, ht .success rfl rfl]

/-! ### The library -/

/-- An event of the library that went well shows at the probe what it shows to the driver. -/
theorem portTraffic_event {e : Event Host} (hrun : Run (g.callbacks e.call) l (.ok e.answer))
    (hgood : hostFails e = false)
    (hshape : ∀ accesses, e.call = .registerAccess accesses → PortAccesses architecture accesses) :
    portTraffic architecture l = (portDriver architecture).traffic [e] := by
  obtain ⟨call, ans⟩ := e
  have hsilent (kinds : List CallKind) (hp : Uses kinds (g.callbacks call)) (hport : .port ∉ kinds)
      (hreset : .reset ∉ kinds) (htraffic : (portDriver architecture).traffic [⟨call, ans⟩] = []) :
      portTraffic architecture l = (portDriver architecture).traffic [⟨call, ans⟩] :=
    (portTraffic_of_uses hp hport hreset hrun).trans htraffic.symm
  cases call with
  | registerAccess accesses => exact portTraffic_access (hshape accesses rfl) hrun hgood
  | resetStart =>
    obtain rfl : ans = .success := not_not.mp (of_decide_eq_false hgood)
    exact portTraffic_resetStart hrun
  | resetEnd =>
    obtain rfl : ans = .success := not_not.mp (of_decide_eq_false hgood)
    exact portTraffic_resetFinish hrun
  | updateProgress => exact hsilent [] uses_pure (by decide) (by decide) rfl
  | presentForm form => exact hsilent [.input] (uses_presentElements _) (by decide) (by decide) rfl
  | _ => exact hsilent [.library] (uses_call rfl) (by decide) (by decide) rfl

theorem portTraffic_of_serves {es : Trace} (h : Serves g.callbacks es l)
    (hgood : ∀ e ∈ es, hostFails e = false)
    (hshape : ∀ e ∈ es, ∀ accesses, e.call = .registerAccess accesses →
      PortAccesses architecture accesses) :
    portTraffic architecture l = (portDriver architecture).traffic es := by
  induction h with
  | nil => rfl
  | @cons c ans es l l' hrun _ ih =>
    rw [List.forall_mem_cons] at hgood hshape
    have hfirst := portTraffic_event (e := ⟨c, ans⟩) hrun hgood.1 hshape.1
    have happend := (portDriver architecture).traffic_append [⟨c, ans⟩] es
    rw [portTraffic_append, hfirst, ih hgood.2 hshape.2, ← happend]
    rfl

theorem portAccesses_of_disciplined {es : Trace} (h : (portDriver architecture).Disciplined es)
    {e : Event Host} (he : e ∈ es) (accesses : List SDMRegisterAccess)
    (hcall : e.call = .registerAccess accesses) :
    PortAccesses architecture accesses := by
  obtain ⟨call, ans⟩ := e
  obtain rfl : call = .registerAccess accesses := hcall
  obtain ⟨l₁, l₂, hes⟩ := List.append_of_mem he
  rcases h.accesses l₁ accesses ans l₂ hes with h | h | h | ⟨byte, -, -, h, -⟩
  · exact .inl h
  · exact .inr (.inl h)
  · exact .inr (.inr ⟨true, h⟩)
  · rw [h]
    exact .inr (.inr ⟨false, writes_writeAccess false (List.cons_ne_nil byte [])⟩)

theorem portTraffic_of_session {psa : PsaAdac} {fuel : Nat} {sdmHandle : SDMHandle} {es : Trace}
    (hserves : Serves g.callbacks es l)
    (hrun : Run (session psa fuel sdmHandle architecture) es (.ok .success)) :
    portTraffic architecture l = (portDriver architecture).traffic es := by
  obtain ⟨s, hfollow, hgood⟩ := (abides_session psa fuel sdmHandle architecture).follow hrun
  have hfine := (hgood .success rfl rfl).1
  exact portTraffic_of_serves hserves (fun e he => fine_of_follow hfollow hfine he)
    fun e he => portAccesses_of_disciplined (disciplined_of_follow hfollow) he

/-! ### The callbacks return -/

theorem Globals.stops_ackLoop (g : Globals) (mask value : UInt32) (left : Nat) (ctrlStat : UInt32)
    (result : RddiResult) : StopsFor (g.ackLoop mask value left ctrlStat result) fun _ => False := by
  induction left generalizing ctrlStat result with
  | zero => exact stopsFor_ite (fun _ => stopsFor_pure) fun _ => stopsFor_pure
  | succ left ih =>
    refine stopsFor_ite (fun _ => ?_) fun _ => stopsFor_pure
    exact stopsFor_perform.bind fun _ _ _ => ih _ _

theorem Globals.stops_systemResetStart (g : Globals) : StopsFor g.systemResetStart fun _ => False := by
  have habandon (result : RddiResult) :
      StopsFor (do let _ ← g.closeDAP; return result) fun _ => False :=
    stopsFor_perform.bind fun _ _ _ => stopsFor_pure
  have hwait (mask value ctrlStat : UInt32) :
      StopsFor (g.waitForACK mask value ctrlStat) fun _ => False :=
    (g.stops_ackLoop _ _ _ _ _).bind fun _ _ _ => stopsFor_pure
  refine stopsFor_ite (fun _ => stopsFor_pure) fun _ => ?_
  refine stopsFor_perform.bind fun _ opened _ => stopsFor_ite (fun _ => stopsFor_pure) fun _ => ?_
  refine stopsFor_perform.bind fun _ read _ => stopsFor_ite (fun _ => habandon _) fun _ => ?_
  refine stopsFor_perform.bind fun _ down _ => stopsFor_ite (fun _ => habandon _) fun _ => ?_
  refine (hwait _ _ _).bind fun _ low _ => stopsFor_ite (fun _ => habandon _) fun _ => ?_
  refine stopsFor_perform.bind fun _ held _ => stopsFor_ite (fun _ => habandon _) fun _ => ?_
  refine stopsFor_perform.bind fun _ up _ => stopsFor_ite (fun _ => habandon _) fun _ => ?_
  refine (hwait _ _ _).bind fun _ high _ => stopsFor_ite (fun _ => habandon _) fun _ => ?_
  exact stopsFor_perform

theorem stops_presentElements (elements : List SDMFormElement) :
    StopsFor (presentElements elements) fun _ => False := by
  induction elements with
  | nil => exact stopsFor_pure
  | cons element elements ih =>
    refine stopsFor_ite (fun _ => stopsFor_pure) fun _ => stopsFor_perform.bind fun _ userInput _ => ?_
    cases userInput with
    | none => exact stopsFor_pure
    | some userInput =>
      exact stopsFor_ite (fun _ => stopsFor_pure) fun _ => ih.bind fun _ _ _ => stopsFor_pure

theorem Globals.stops_callbacks (g : Globals) (call : HostCall) :
    StopsFor (g.callbacks call) fun _ => False := by
  cases call with
  | registerAccess accesses =>
    have haccess : StopsFor (g.registerAccess true (some (accesses.map .ofLibrary)) (some 0))
        fun _ => False := by
      refine stopsFor_ite (fun _ => stopsFor_pure) fun _ => ?_
      refine stopsFor_ite (fun _ => stopsFor_pure) fun _ => ?_
      refine stopsFor_ite (fun _ => stopsFor_pure) fun _ => ?_
      refine stopsFor_ite (fun _ => stopsFor_pure) fun _ => ?_
      refine stopsFor_perform.bind fun _ _ _ => ?_
      exact stopsFor_ite (fun _ => stopsFor_pure) fun _ => stopsFor_pure
    exact haccess.bind fun _ _ _ => stopsFor_pure
  | resetStart =>
    rw [callbacks, resetStart]
    refine stopsFor_ite (fun _ => stopsFor_pure) fun _ => g.stops_systemResetStart.bind fun _ _ _ => ?_
    exact stopsFor_ite (fun _ => stopsFor_pure) fun _ => stopsFor_pure
  | resetEnd =>
    rw [callbacks, resetFinish]
    refine stopsFor_ite (fun _ => stopsFor_pure) fun _ => stopsFor_perform.bind fun _ _ _ => ?_
    exact stopsFor_ite (fun _ => stopsFor_pure) fun _ => stopsFor_pure
  | updateProgress => exact stopsFor_pure
  | presentForm form => exact stops_presentElements _
  | _ => exact stopsFor_perform

/-! ### The program -/

variable {psa : PsaAdac} {fuel : Nat} {sdmHandle : SDMHandle} {argv : List String}
  {r : Except Stop ExitCode}

/-- The part of a run in which the library is at work: what it was asked with was answered by the
callbacks, and how it ended is how the run ended. -/
structure Session (psa : PsaAdac) (fuel : Nat) (sdmHandle : SDMHandle) (l : List (Event Rddi))
    (r : Except Stop ExitCode) (g : Globals) (architecture : SDMDebugArchitecture) (es : Trace)
    (before served behind : List (Event Rddi)) : Prop where
  split : l = before ++ (served ++ behind)
  opened : ∃ deviceId, architectureOf deviceId = some architecture ∧
    ⟨.debugOpenConn g.gRDDIHandle g.gCOMPortDeviceIndex, (.success, deviceId)⟩ ∈ before
  serves : Serves g.callbacks es served
  run : Run (session psa fuel sdmHandle architecture) es r
  before_links : ∀ e ∈ before, e.call.kind = .link
  behind_links : ∀ e ∈ behind, e.call.kind = .link

theorem link_of_uses {α : Type} {p : Client α} {r : Except Stop α} (hp : Uses [.link] p)
    (h : Run p l r) : ∀ e ∈ l, e.call.kind = .link :=
  fun e he => List.mem_singleton.mp (hp l r h e he)

theorem stops_rddiInitialize (sdf address : String) :
    StopsFor (rddiInitialize sdf address) fun _ => False := by
  have hclose (handle : RDDIHandle) (out : RddiResult × RDDIHandle) :
      StopsFor (do let _ ← callRddi (.rddiClose handle); return out) fun _ => False :=
    stopsFor_perform.bind fun _ _ _ => stopsFor_pure
  refine stopsFor_perform.bind fun _ opened _ => stopsFor_ite (fun _ => stopsFor_pure) fun _ => ?_
  refine stopsFor_perform.bind fun _ configured _ => stopsFor_ite (fun _ => hclose _ _) fun _ => ?_
  refine stopsFor_perform.bind fun _ connected _ => stopsFor_ite (fun _ => hclose _ _) fun _ => ?_
  exact stopsFor_pure

theorem Globals.stops_rddiFinalize (g : Globals) : StopsFor g.rddiFinalize fun _ => False :=
  stopsFor_perform.bind fun _ _ _ => stopsFor_perform.bind fun _ _ _ => stopsFor_pure

theorem Globals.run_windDown {code : ExitCode} (h : Run (g.windDown code) l r) :
    r = .ok code ∧ ∀ e ∈ l, e.call.kind = .link := by
  refine ⟨?_, link_of_uses (g.uses_windDown code) h⟩
  obtain ⟨closed, l₁, l₂, -, -, h₂⟩ := stopsFor_perform.run_bind h
  obtain ⟨finalized, l₃, l₄, -, -, h₄⟩ := g.stops_rddiFinalize.run_bind h₂
  exact (run_pure.mp h₄).2

theorem run_main (h : Run (main psa fuel sdmHandle argv) l r) : r = .ok .failure ∨
    ∃ g architecture es before served behind, g.gCOMPortDeviceIndex = atoi (argv.getD 4 "") ∧
      Session psa fuel sdmHandle l r g architecture es before served behind := by
  unfold main at h
  split at h
  · rename_i name address sdf dap com
    obtain ⟨out, l₁, l₂, rfl, h₁, h₂⟩ := (stops_rddiInitialize sdf address).run_bind h
    dsimp only at h₂
    split_ifs at h₂ with hres
    · exact .inl (run_pure.mp h₂).2
    obtain ⟨opened, l₃, l₄, rfl, h₃, h₄⟩ := stopsFor_perform.run_bind h₂
    split_ifs at h₄ with hres
    · obtain ⟨finalized, l₅, l₆, -, -, h₆⟩ := (Globals.stops_rddiFinalize _).run_bind h₄
      exact .inl (run_pure.mp h₆).2
    obtain ⟨_, rfl, hopened⟩ := run_perform.mp h₃
    obtain rfl := Except.ok.inj hopened
    split at h₄
    · rename_i architecture harch
      right
      have hdevice : ∃ deviceId, architectureOf deviceId = some architecture ∧
          (⟨.debugOpenConn out.2 (atoi com), (.success, deviceId)⟩ : Event Rddi) ∈
            l₁ ++ [⟨.debugOpenConn out.2 (atoi com), opened⟩] := by
        refine ⟨opened.2, harch, List.mem_append_right l₁ (List.mem_singleton.mpr ?_)⟩
        rw [← not_not.mp hres]
      have hbefore : ∀ e ∈ l₁ ++ [(⟨.debugOpenConn out.2 (atoi com), opened⟩ : Event Rddi)],
          e.call.kind = .link := by
        intro e he
        rcases List.mem_append.mp he with he | he
        · exact link_of_uses (uses_rddiInitialize sdf address) h₁ e he
        · rw [List.mem_singleton.mp he]
          rfl
      have hreturns (call : HostCall) (e : Stop) :
          Avoids (Globals.callbacks ⟨atoi dap, atoi com, out.2⟩ call) e :=
        (Globals.stops_callbacks _ call).avoids id
      rcases run_bind.mp h₄ with ⟨code, served, behind, rfl, h₅, h₆⟩ | ⟨e, rfl, h₅⟩
      · obtain ⟨es, hserves, hrun⟩ := (run_serve hreturns).mp h₅
        obtain ⟨rfl, hbehind⟩ := Globals.run_windDown h₆
        exact ⟨_, architecture, es, _, served, behind, rfl, (List.append_assoc _ _ _).symm, hdevice,
          hserves, hrun, hbefore, hbehind⟩
      · obtain ⟨es, hserves, hrun⟩ := (run_serve hreturns).mp h₅
        refine ⟨_, architecture, es, _, l₄, [], rfl, ?_, hdevice, hserves, hrun, hbefore, ?_⟩
        · rw [List.append_nil, List.append_assoc]
        · exact fun e he => by cases he
    · exact .inl (Globals.run_windDown h₄).1
  · exact .inl (run_pure.mp h).2

/-! ### What goes over the COM port -/

variable {architecture : SDMDebugArchitecture}

theorem run_closeSession {gSDMImpl : Option LiveImpl} {handle : SDMHandle} {code : ExitCode}
    {es : Trace} {r : Except Stop ExitCode}
    (h : Run (do let _ ← SecureDebug.sdmClose fuel gSDMImpl handle; return code) es r) :
    es = [] ∧ r = .ok code := by
  obtain ⟨out, hout⟩ := exists_sdmClose_eq fuel gSDMImpl handle
  rw [hout] at h
  exact run_pure.mp h

theorem sdmAuthenticate_live (live : LiveImpl) :
    SecureDebug.sdmAuthenticate psa fuel (some live) live.handle =
      live.impl.sdmAuthenticate psa fuel >>= fun out =>
        pure (out.1, some { live with impl := out.2 }) := by
  rw [SecureDebug.sdmAuthenticate]
  dsimp only
  rw [if_neg (not_not.mpr rfl)]

theorem run_session_opened {live : LiveImpl} {es : Trace} {r : Except Stop ExitCode}
    (h : Run (do
      let (sdmRes, gSDMImpl) ← SecureDebug.sdmAuthenticate psa fuel (some live) live.handle
      if sdmRes ≠ .success then
        let _ ← SecureDebug.sdmClose fuel gSDMImpl live.handle
        return .failure
      let (sdmRes, gSDMImpl) ← SecureDebug.sdmResumeBoot gSDMImpl live.handle
      if sdmRes ≠ .success then
        let _ ← SecureDebug.sdmClose fuel gSDMImpl live.handle
        return .failure
      let _ ← SecureDebug.sdmClose fuel gSDMImpl live.handle
      return .success) es r) :
    (∃ e, r = .error e ∧ Run (live.impl.sdmAuthenticate psa fuel) es (.error e)) ∨
      ∃ code out, r = .ok code ∧ Run (live.impl.sdmAuthenticate psa fuel) es (.ok out) ∧
        (code = .success → out.1 = .success) := by
  rw [sdmAuthenticate_live, bind_assoc] at h
  rcases run_bind.mp h with ⟨out, es₁, es₂, rfl, h₁, h₂⟩ | herror
  swap
  · exact .inl herror
  right
  rw [pure_bind] at h₂
  dsimp only at h₂
  split_ifs at h₂ with hres
  · obtain ⟨rfl, rfl⟩ := run_closeSession h₂
    rw [List.append_nil]
    exact ⟨_, out, rfl, h₁, fun h => by cases h⟩
  · obtain ⟨resumed, hresumed⟩ := exists_sdmResumeBoot_eq (some { live with impl := out.2 }) live.handle
    rw [hresumed, pure_bind] at h₂
    split_ifs at h₂
    · obtain ⟨rfl, rfl⟩ := run_closeSession h₂
      rw [List.append_nil]
      exact ⟨_, out, rfl, h₁, fun h => by cases h⟩
    · obtain ⟨rfl, rfl⟩ := run_closeSession h₂
      rw [List.append_nil]
      exact ⟨_, out, rfl, h₁, fun _ => not_not.mp hres⟩

theorem run_session {es : Trace} {r : Except Stop ExitCode}
    (h : Run (session psa fuel sdmHandle architecture) es r) : r = .ok .failure ∨
    (∃ e, r = .error e ∧ Run (SecureDebug.sdmOpen fuel none (some sdmHandle)
      (some (sdmOpenParams architecture))) es (.error e)) ∨
    ∃ es₁ es₂ live, es = es₁ ++ es₂ ∧ OpenedFor (sdmOpenParams architecture) live.impl ∧
      Run (SecureDebug.sdmOpen fuel none (some sdmHandle) (some (sdmOpenParams architecture))) es₁
        (.ok ⟨.success, some live.handle, some live⟩) ∧
      ((∃ e, r = .error e ∧ Run (live.impl.sdmAuthenticate psa fuel) es₂ (.error e)) ∨
        ∃ code out, r = .ok code ∧ Run (live.impl.sdmAuthenticate psa fuel) es₂ (.ok out) ∧
          (code = .success → out.1 = .success)) := by
  rcases run_bind.mp h with ⟨opened, es₁, es₂, rfl, h₁, h₂⟩ | herror
  swap
  · exact .inr (.inl herror)
  split_ifs at h₂ with hres
  · exact .inl (run_pure.mp h₂).2
  obtain ⟨live, hlive, hhandle, hgSDMImpl⟩ := returns_sdmOpen_live _ _ _ h₁ (not_not.mp hres)
  obtain ⟨res, handle, gSDMImpl⟩ := opened
  obtain ⟨rfl, rfl, rfl⟩ : res = .success ∧ handle = some live.handle ∧ gSDMImpl = some live :=
    ⟨not_not.mp hres, hhandle, hgSDMImpl⟩
  exact .inr (.inr ⟨es₁, es₂, live, rfl, hlive, h₁, run_session_opened h₂⟩)

/-- The handshake around a reset of the system was completed, up to a response that passes for the
protocol in memory that held `junk`. -/
def HandshakeDone (junk : List UInt8) (t : List Observation) : Prop :=
  (stages fun bytes => ∃ pre, bytes = pre ++ [flagEND] ∧ Passes junk pre).Follows (handshake .system)
    t true

theorem handshake_of_sdmOpen {params : SDMOpenParameters} {this this' : SecureDebugManagerImpl}
    {es : Trace} (h : Run (this.sdmOpen fuel (some params)) es (.ok (.success, this'))) :
    ∃ junk, junk.length = sdResponseLength ∧ HandshakeDone junk ((openDriver params).traffic es) := by
  unfold SecureDebugManagerImpl.sdmOpen at h
  split_ifs at h with hopen
  · cases (run_pure.mp h).2
  dsimp only at h
  cases hcb : params.callbacks with
  | none =>
    rw [hcb] at h
    cases (run_halt.mp h).2
  | some callbacks =>
    rw [hcb, deref_some, pure_bind] at h
    have hdriver : openDriver params = .new params.debugArchitecture callbacks.registerAccess
        callbacks.resetStart callbacks.resetFinish := by rw [openDriver, hcb]
    rw [← hdriver] at h
    obtain ⟨adacRes, l₁, l₂, rfl, h₁, h₂⟩ := run_bind_ok.mp h
    obtain ⟨answer, rfl, -⟩ := run_perform.mp h₁
    split_ifs at h₂ with hinit
    · cases (run_pure.mp h₂).2
    obtain ⟨idResBuff, l₃, l₄, rfl, h₃, h₄⟩ := run_bind_ok.mp h₂
    obtain ⟨content, rfl, -⟩ := run_perform.mp h₃
    obtain ⟨out, l₅, l₆, rfl, h₅, h₆⟩ := run_bind_ok.mp h₄
    have hsize : out.idResponseBuffer.length = sdResponseLength :=
      (ExternalComPortDriver.returns_eComPortInit _ _ h₅).trans idResBuff.length_toList
    split_ifs at h₆ with hres hprotocol
    · exact absurd (Prod.mk.inj (Except.ok.inj (run_pure.mp h₆).2)).1.symm hres
    · exact absurd (Prod.mk.inj (Except.ok.inj (run_pure.mp h₆).2)).1.symm hprotocol
    obtain ⟨rfl, -⟩ := run_pure_ok.mp h₆
    -- both the identification and the protocol passed, which is what the last stage asks for
    have hid := (checkProtocol_eq_success hsize).mp (not_not.mp hprotocol)
    obtain ⟨c, hfollows, hc⟩ := ExternalComPortDriver.performs_eComPortInit protocol _ _ h₅
    obtain rfl : c = true := hc.mpr ⟨out, rfl, not_not.mp hres, hid⟩
    have haccepted : ExternalComPortDriver.Identified idResBuff.toList sdResponseLength protocol =
        fun bytes => ∃ pre, bytes = pre ++ [flagEND] ∧ Passes idResBuff.toList pre :=
      funext fun bytes => propext (identified_protocol_iff idResBuff.length_toList)
    rw [haccepted] at hfollows
    refine ⟨idResBuff.toList, idResBuff.length_toList, ?_⟩
    rw [List.append_nil, ExternalComPortDriver.traffic_append, ExternalComPortDriver.traffic_append]
    exact hfollows

theorem run_sdmOpen_handshake {params : SDMOpenParameters} {handle : Option SDMHandle} {live : LiveImpl}
    {es : Trace} (h : Run (SecureDebug.sdmOpen fuel none handle (some params)) es
      (.ok ⟨.success, some live.handle, some live⟩)) :
    ∃ junk, junk.length = sdResponseLength ∧ HandshakeDone junk ((openDriver params).traffic es) := by
  rw [sdmOpen_eq] at h
  obtain ⟨address, l₁, l₂, rfl, h₁, h₂⟩ := run_bind_ok.mp h
  obtain ⟨_, rfl, -⟩ := run_perform.mp h₁
  obtain ⟨opened, l₃, l₄, rfl, h₃, h₄⟩ := run_bind_ok.mp h₂
  split_ifs at h₄ with hres
  · cases (OpenResult.mk.inj (Except.ok.inj (run_pure.mp h₄).2)).2.2
  -- storing the handle asks the host for nothing
  have hnil : l₄ = [] := by
    cases handle with
    | none => cases (run_halt.mp h₄).2
    | some handle => exact (run_pure.mp h₄).1
  obtain ⟨res, impl⟩ := opened
  obtain rfl : res = .success := not_not.mp hres
  obtain ⟨junk, hjunk, hfollows⟩ := handshake_of_sdmOpen h₃
  refine ⟨junk, hjunk, ?_⟩
  rw [hnil, List.append_nil, ExternalComPortDriver.traffic_append]
  exact hfollows

theorem observeAccesses_inited (driver : ExternalComPortDriver) (ok : Bool)
    (accesses : List SDMRegisterAccess) (completed : Nat) (values : List UInt32) :
    ExternalComPortDriver.observeAccesses { driver with mIsComPortInited := true } ok accesses completed
      values = driver.observeAccesses ok accesses completed values := by
  induction accesses generalizing completed values with
  | nil => rfl
  | cons access accesses ih => exact congrArg _ (ih _ _)

theorem traffic_inited (driver : ExternalComPortDriver) (es : Trace) :
    ExternalComPortDriver.traffic { driver with mIsComPortInited := true } es = driver.traffic es := by
  have hevent : ExternalComPortDriver.observeEvent { driver with mIsComPortInited := true } =
      driver.observeEvent := by
    funext e
    obtain ⟨c, ans⟩ := e
    cases c with
    | registerAccess accesses => exact observeAccesses_inited driver _ accesses _ _
    | _ => rfl
  rw [ExternalComPortDriver.traffic, ExternalComPortDriver.observe, hevent]
  rfl

theorem mem_of_serves {g : Globals} {l : List (Event Rddi)} {es : Trace} {e : Event Host}
    (h : Serves g.callbacks es l) (he : e ∈ es)
    (hlibrary : g.callbacks e.call = callRddi (.library e.call)) :
    (⟨.library e.call, e.answer⟩ : Event Rddi) ∈ l := by
  induction h with
  | nil => cases he
  | @cons c ans es l l' hrun _ ih =>
    rcases List.mem_cons.mp he with rfl | he
    · rw [hlibrary] at hrun
      obtain ⟨_, rfl, hans⟩ := run_perform.mp hrun
      obtain rfl := Except.ok.inj hans
      exact List.mem_append_left l' List.mem_cons_self
    · exact List.mem_append_right l (ih he)

theorem exists_of_responses {es : Trace} {rs : List Exchange} (h : responses psa es = some rs) :
    ∃ token exts, rs = certificates psa exts ++ [.response token] ∧
      (∃ challenge signatureType handle res,
        (⟨.psaAdacSignToken challenge signatureType handle, (res, token)⟩ : Event Host) ∈ es) ∧
      ∃ chain res, (⟨.splitTlvStatic chain, (res, exts)⟩ : Event Host) ∈ es := by
  rw [responses] at h
  obtain ⟨token, htoken, h⟩ := Option.bind_eq_some_iff.mp h
  obtain ⟨exts, hexts, rfl⟩ := Option.map_eq_some_iff.mp h
  obtain ⟨⟨c, ans⟩, hsigned, hsome⟩ := List.exists_of_findSome?_eq_some htoken
  obtain ⟨⟨c', ans'⟩, hsplit, hsome'⟩ := List.exists_of_findSome?_eq_some hexts
  refine ⟨token, exts, rfl, ?_, ?_⟩
  · cases c with
    | psaAdacSignToken challenge signatureType handle =>
      rw [signedToken] at hsome
      obtain ⟨-, hsome⟩ := Option.ite_none_left_eq_some.mp hsome
      refine ⟨challenge, signatureType, handle, ans.1, ?_⟩
      rwa [← Option.some.inj hsome]
    | _ => cases hsome
  · cases c' with
    | splitTlvStatic chain =>
      rw [splitChain] at hsome'
      obtain ⟨-, hsome'⟩ := Option.ite_none_left_eq_some.mp hsome'
      refine ⟨chain, ans'.1, ?_⟩
      rwa [← Option.some.inj hsome']
    | _ => cases hsome'

def SignedBy (l : List (Event Rddi)) (token : List UInt8) : Prop :=
  ∃ challenge signatureType handle res,
    (⟨.library (.psaAdacSignToken challenge signatureType handle), (res, token)⟩ : Event Rddi) ∈ l

def SplitInto (l : List (Event Rddi)) (exts : List PsaTlv) : Prop :=
  ∃ chain res, (⟨.library (.splitTlvStatic chain), (res, exts)⟩ : Event Rddi) ∈ l

/-- When the example exits with success, what went over the COM port is the whole protocol and nothing
else: the handshake around one reset, in the order of its steps, up to a response that passes for the
protocol, then the request for a challenge, the certificates of the chain in order and the token, each
sent behind an accepted answer to the one before, and an accepted answer to the token. The registers
are those of the device that the connection to the COM port was opened to. -/
theorem main_wire (h : Run (main psa fuel sdmHandle argv) l (.ok .success)) :
    ∃ architecture junk token exts t₁ t₂, portTraffic architecture l = t₁ ++ t₂ ∧
      HandshakeDone junk t₁ ∧
      (authSteps psa new.mMsgBuffer).Follows
        (lockstep (.start :: (certificates psa exts ++ [.response token]))) t₂ true ∧
      junk.length = sdResponseLength ∧ SignedBy l token ∧ SplitInto l exts ∧
      ∃ handle deviceId, architectureOf deviceId = some architecture ∧
        (⟨.debugOpenConn handle (atoi (argv.getD 4 "")), (.success, deviceId)⟩ : Event Rddi) ∈ l := by
  rcases run_main h with hbad | ⟨g, architecture, es, before, served, behind, hcom, hsession⟩
  · cases hbad
  obtain ⟨rfl, ⟨deviceId, harch, hopened⟩, hserves, hrun, hbefore, hbehind⟩ := hsession
  -- outside of the session only connections are opened and closed
  have hsilent (l' : List (Event Rddi)) (hl' : ∀ e ∈ l', e.call.kind = .link) :
      portTraffic architecture l' = [] := by
    refine List.flatMap_eq_nil_iff.mpr fun e he => portEvent_of_kind ?_ ?_
    · rw [hl' e he]
      decide
    · rw [hl' e he]
      decide
  have htraffic := portTraffic_of_session hserves hrun
  rcases run_session hrun with hbad | ⟨e, hbad, -⟩ | ⟨es₁, es₂, live, rfl, hlive, hopen, hauth⟩
  · cases hbad
  · cases hbad
  rcases hauth with ⟨e, hbad, -⟩ | ⟨code, out, hcode, hauth, hgood⟩
  · cases hbad
  obtain ⟨junk, hjunk, hhandshake⟩ := run_sdmOpen_handshake hopen
  obtain ⟨c, hfollows, hc⟩ := run_sdmAuthenticate_exchanges hlive.isOpen hauth
  obtain ⟨hsome, rfl⟩ := hc.mpr ⟨out, rfl, hgood (Except.ok.inj hcode).symm⟩
  obtain ⟨rs, hrs⟩ := Option.isSome_iff_exists.mp hsome
  obtain ⟨token, exts, rfl, ⟨challenge, signatureType, handle, res, hsigned⟩, chain, res', hsplit⟩ :=
    exists_of_responses hrs
  rw [exchanges, hrs, Option.getD_some, hlive.buffer, traffic_inited] at hfollows
  refine ⟨architecture, junk, token, exts, _, _, ?_, hhandshake, hfollows, hjunk, ?_, ?_, ?_⟩
  · rw [portTraffic_append, portTraffic_append, hsilent before hbefore, hsilent behind hbehind, htraffic,
      List.nil_append, List.append_nil, ExternalComPortDriver.traffic_append]
  · refine ⟨challenge, signatureType, handle, res, ?_⟩
    have hmem := mem_of_serves hserves (List.mem_append_right es₁ hsigned) rfl
    exact List.mem_append_right before (List.mem_append_left behind hmem)
  · refine ⟨chain, res', ?_⟩
    have hmem := mem_of_serves hserves (List.mem_append_right es₁ hsplit) rfl
    exact List.mem_append_right before (List.mem_append_left behind hmem)
  · rw [← hcom]
    exact ⟨g.gRDDIHandle, deviceId, harch, List.mem_append_left _ hopened⟩

theorem main_wire_sample : ∃ architecture junk token exts t₁ t₂,
    portTraffic architecture sampleRun.2.1 = t₁ ++ t₂ ∧
      HandshakeDone junk t₁ ∧
      (authSteps .standard new.mMsgBuffer).Follows
        (lockstep (.start :: (certificates .standard exts ++ [.response token]))) t₂ true := by
  obtain ⟨architecture, junk, token, exts, t₁, t₂, htraffic, hhandshake, hanswers, -⟩ :=
    main_wire run_sampleRun
  exact ⟨architecture, junk, token, exts, t₁, t₂, htraffic, hhandshake, hanswers⟩

/-! ### How the example stops -/

end
end SecureDebug.Example
