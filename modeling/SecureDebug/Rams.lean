import Mathlib.Data.List.AList
import SecureDebug.Interaction.Serving
import SecureDebug.Interaction.Steps

/-! The Cortex-A35 core of the board in the debugger. What the options for its cache ask for is kept
with the core, and set on it when it is connected and with each connection that is made. -/

namespace SecureDebug.Rams
open Interaction Program

inductive RddiErrorCode where
  | itemNotSup
  | other (code : Int)
  deriving DecidableEq, Repr

/-- What the framework raises; `native` is a `NativeException`. -/
inductive DtslException where
  | native (rddiErrorCode : RddiErrorCode)
  | other
  deriving DecidableEq, Repr

abbrev Config := AList fun _ : String => String

/-- What the framework is asked for the core, and `items`: the items of a dictionary. -/
inductive DtslCall where
  | openConn
  | closeConn
  | isConnected
  | setConfig (name value : String)
  | getOptionValue (optionName : String)
  | items (config : Config)

/-- An exception, if there is one. A dictionary gives its items in any order. -/
abbrev DtslCall.Answer : DtslCall → Type
  | openConn => Option DtslException
  | closeConn => Option DtslException
  | isConnected => Except DtslException Bool
  | setConfig _ _ => Option DtslException
  | getOptionValue _ => Except DtslException Bool
  | items config => { items : List (Σ _ : String, String) // items.Perm config.entries }

abbrev Framework : Interface := ⟨DtslCall, DtslCall.Answer⟩

/-- A method returns what it raises next to the object. -/
abbrev Dtsl (α : Type) := Program Framework Empty α

abbrev callDtsl (c : DtslCall) : Dtsl c.Answer := Program.perform (I := Framework) c

def cfgCacheDebugMode : String := "CACHE_DEBUG_MODE"
def cfgCachePreservationMode : String := "CACHE_PRESERVATION_MODE"

structure A35CoreDevice where
  postConnectConfig : Config := ∅
  isConnected : Bool := false

/-- The loop of `openConn`. Older firmware misses an item; any other exception is raised again. -/
def setItems : List (Σ _ : String, String) → Dtsl (Option DtslException)
  | [] => return none
  | ⟨k, v⟩ :: items => do
    let raised ← callDtsl (.setConfig k v)
    if raised ≠ none ∧ raised ≠ some (.native .itemNotSup) then return raised
    setItems items

def stringValue (optionValue : Bool) : String := if optionValue then "1" else "0"

namespace A35CoreDevice
variable (this : A35CoreDevice)

def openConn : Dtsl (Option DtslException × A35CoreDevice) := do
  let raised ← callDtsl .openConn
  if raised ≠ none then return (raised, this)
  let items ← callDtsl (.items this.postConnectConfig)
  let raised ← setItems items.1
  if raised ≠ none then return (raised, this)
  return (none, { this with isConnected := true })

def closeConn : Dtsl (Option DtslException × A35CoreDevice) := do
  let this := { this with isConnected := false }
  let raised ← callDtsl .closeConn
  return (raised, this)

def addPostConnectConfigItem (name value : String) : A35CoreDevice :=
  { this with postConnectConfig := this.postConnectConfig.insert name value }

def setConfigWhenConnected (name value : String) :
    Dtsl (Option DtslException × A35CoreDevice) := do
  let this := this.addPostConnectConfigItem name value
  if this.isConnected then
    let raised ← callDtsl (.setConfig name value)
    return (raised, this)
  return (none, this)

def applyOptions (optionName cfgItem : String) : Dtsl (Option DtslException × A35CoreDevice) := do
  match ← callDtsl (.getOptionValue optionName) with
  | .error e => return (some e, this)
  | .ok optionValue =>
    let (raised, this) ← this.setConfigWhenConnected cfgItem (stringValue optionValue)
    if raised = some (.native .itemNotSup) then return (none, this)
    return (raised, this)

def applyCacheDebug (optionName : String) : Dtsl (Option DtslException × A35CoreDevice) :=
  this.applyOptions optionName cfgCacheDebugMode

def applyCachePreservation (optionName : String) : Dtsl (Option DtslException × A35CoreDevice) :=
  this.applyOptions optionName cfgCachePreservationMode

/-- The board has one core of this kind. -/
def updateDynamicOptions : Dtsl (Option DtslException × A35CoreDevice) := do
  let (raised, this) ← this.applyCacheDebug "options.rams.cacheDebug"
  if raised ≠ none then return (raised, this)
  this.applyCachePreservation "options.rams.cachePreserve"

def setInitialOptions : Dtsl Unit := return ()

def optionValuesChanged : Dtsl (Option DtslException × A35CoreDevice) := do
  match ← callDtsl .isConnected with
  | .error e => return (some e, this)
  | .ok connected =>
    if !connected then setInitialOptions
    this.updateDynamicOptions

end A35CoreDevice

inductive DeviceCall where
  | openConn
  | closeConn
  | optionValuesChanged

def DeviceCall.perform (c : DeviceCall) (this : A35CoreDevice) :
    Dtsl (Option DtslException × A35CoreDevice) :=
  match c with
  | openConn => this.openConn
  | closeConn => this.closeConn
  | optionValuesChanged => this.optionValuesChanged

def options : List (String × String) :=
  [("options.rams.cacheDebug", cfgCacheDebugMode),
    ("options.rams.cachePreserve", cfgCachePreservationMode)]

/-! ### What was seen -/

/-- What an option was when it was last read, and the value and the end of the last attempt to set an
item. -/
structure Seen where
  read : String → Option Bool := fun _ => none
  tried : String → Option (String × Option DtslException) := fun _ => none

namespace Seen

def behind (s : Seen) : Event Framework → Seen
  | ⟨.getOptionValue optionName, (.ok optionValue : Except DtslException Bool)⟩ =>
    { s with read := Function.update s.read optionName (some optionValue) }
  | ⟨.setConfig name value, (raised : Option DtslException)⟩ =>
    { s with tried := Function.update s.tried name (some (value, raised)) }
  | _ => s

def of (l : List (Event Framework)) : Seen := l.foldl behind {}

end Seen

abbrev seen : Monitor Framework Seen := fun s e => some (s.behind e)

/-- Nothing was raised, or what older firmware raises for an item that it misses, or what is known to
have been raised to the debugger. -/
def Settled (known : DtslException → Prop) (raised : Option DtslException) : Prop :=
  ∀ e, raised = some e → e = .native .itemNotSup ∨ known e

/-- The last attempt to set the item was with this value. -/
def Tried (known : DtslException → Prop) (s : Seen) (name value : String) : Prop :=
  ∃ raised, s.tried name = some (value, raised) ∧ Settled known raised

/-- The core has what the options were last read as, and when it is connected it was told. -/
structure Current (known : DtslException → Prop) (s : Seen) (this : A35CoreDevice) : Prop where
  recorded : ∀ o ∈ options, this.postConnectConfig.lookup o.2 = (s.read o.1).map stringValue
  tried : this.isConnected = true → ∀ name value, this.postConnectConfig.lookup name = some value →
    Tried known s name value

section
variable {known known' : DtslException → Prop} {s t : Seen} {this : A35CoreDevice}
  {name value cfgItem : String} {raised : Option DtslException} {o : String × String}

theorem Settled.mono (h : Settled known raised) (hknown : ∀ e, known e → known' e) :
    Settled known' raised :=
  fun e he => (h e he).imp_right (hknown e)

theorem Tried.mono (h : Tried known s name value) (hknown : ∀ e, known e → known' e) :
    Tried known' s name value := by
  obtain ⟨raised, htried, hsettled⟩ := h
  exact ⟨raised, htried, hsettled.mono hknown⟩

theorem Current.mono (h : Current known s this) (hknown : ∀ e, known e → known' e) :
    Current known' s this :=
  ⟨h.recorded, fun hconnected name value hlookup => (h.tried hconnected name value hlookup).mono hknown⟩

theorem settled_of_ignored (h : ¬(raised ≠ none ∧ raised ≠ some (.native .itemNotSup))) :
    Settled known raised := by
  intro e he
  subst he
  exact .inl (by simpa using h)

theorem tried_setConfig_self : (s.behind ⟨.setConfig name value, raised⟩).tried name =
    some (value, raised) := by simp [Seen.behind]

theorem tried_setConfig_ne {other : String} (h : other ≠ name) :
    (s.behind ⟨.setConfig name value, raised⟩).tried other = s.tried other := by
  simp [Seen.behind, h]

theorem Tried.setConfig {other : String} (hsame : other = name → value = cfgItem)
    (hother : other ≠ name → Tried known s other cfgItem) (hraised : Settled known raised) :
    Tried known (s.behind ⟨.setConfig name value, raised⟩) other cfgItem := by
  by_cases h : other = name
  · subst h
    rw [← hsame rfl]
    exact ⟨raised, tried_setConfig_self, hraised⟩
  · obtain ⟨r, htried, hsettled⟩ := hother h
    exact ⟨r, by rw [tried_setConfig_ne h, htried], hsettled⟩

/-! ### Connecting -/

/-- An item of the dictionary that was set before the loop, or is set in a loop that comes to its end,
is set behind it. -/
theorem abides_setItems (known : DtslException → Prop) {config : Config}
    (items : List (Σ _ : String, String))
    (hitems : ∀ item ∈ items, config.lookup item.1 = some item.2) :
    Abides seen (fun raised t => t.read = s.read ∧ ∀ name value, config.lookup name = some value →
      (Tried known s name value ∨ raised = none ∧ ⟨name, value⟩ ∈ items) →
      Tried (fun e => known e ∨ raised = some e) t name value) (setItems items) s := by
  induction items generalizing s with
  | nil =>
    refine abides_pure ⟨rfl, fun name value _ h => ?_⟩
    have htried : Tried known s name value := by simpa using h
    exact htried.mono fun e => Or.inl
  | cons item items ih =>
    obtain ⟨k, v⟩ := item
    rw [List.forall_mem_cons] at hitems
    have hsame {other value : String} (hlookup : config.lookup other = some value) (h : other = k) :
        v = value := by
      subst h
      exact Option.some.inj (hitems.1.symm.trans hlookup)
    rw [setItems]
    refine abides_call fun raised => ⟨_, rfl, abides_ite (fun hbad => ?_) fun hgood => ?_⟩
    · -- the loop is left, so that only what was set before it counts for the items behind
      refine abides_pure ⟨rfl, fun name value hlookup h => ?_⟩
      have htried : Tried known s name value := by simpa [hbad.1] using h
      refine Tried.setConfig (hsame hlookup) (fun _ => htried.mono fun e => Or.inl) ?_
      exact fun e he => .inr (.inr he)
    · have hsettled : Settled known raised := settled_of_ignored hgood
      refine (ih hitems.2).mono fun r t ht => ⟨ht.1, fun name value hlookup h => ?_⟩
      refine ht.2 name value hlookup ?_
      by_cases hname : name = k
      · exact .inl (Tried.setConfig (hsame hlookup) (fun hne => absurd hname hne) hsettled)
      · rcases h with h | ⟨hr, hmem⟩
        · exact .inl (Tried.setConfig (hsame hlookup) (fun _ => h) hsettled)
        · exact .inr ⟨hr, by simpa [hname] using hmem⟩

theorem abides_openConn (h : Current known s this) :
    Abides seen (fun out t => Current (fun e => known e ∨ out.1 = some e) t out.2) this.openConn s := by
  have hkeep {raised : Option DtslException} : Current (fun e => known e ∨ raised = some e) s this :=
    h.mono fun e => Or.inl
  refine abides_call fun opened => ⟨_, rfl, abides_ite (fun _ => hkeep) fun _ => ?_⟩
  refine abides_call fun items => ⟨_, rfl, ?_⟩
  have hitems : ∀ item ∈ items.1, this.postConnectConfig.lookup item.1 = some item.2 :=
    fun item hitem => AList.mem_lookup_iff.mpr (items.2.mem_iff.mp hitem)
  refine (abides_setItems known items.1 hitems).bind fun raised t ht => ?_
  obtain ⟨hread, htried⟩ := ht
  have hrecorded : ∀ o ∈ options, this.postConnectConfig.lookup o.2 = (t.read o.1).map stringValue := by
    rw [hread]
    exact h.recorded
  refine abides_ite (fun hne => ?_) fun hnone => ?_
  · -- `isConnected` is not changed, and may still be set from a connection before
    refine abides_pure ⟨hrecorded, fun hconnected name value hlookup => ?_⟩
    exact htried name value hlookup (.inl (h.tried hconnected name value hlookup))
  · refine abides_pure ⟨hrecorded, fun _ name value hlookup => ?_⟩
    have hmem : ⟨name, value⟩ ∈ items.1 := items.2.mem_iff.mpr (AList.mem_lookup_iff.mp hlookup)
    refine (htried name value hlookup (.inr ⟨not_not.mp hnone, hmem⟩)).mono fun e he => ?_
    exact he.imp_right fun hraised => absurd hraised (by rw [not_not.mp hnone]; simp)

/-! ### Options -/

theorem snd_eq_iff_of_options {o' : String × String} (ho : o ∈ options) (ho' : o' ∈ options) :
    o'.2 = o.2 ↔ o'.1 = o.1 := by
  have hall : ∀ o ∈ options, ∀ o' ∈ options, (o'.2 = o.2 ↔ o'.1 = o.1) := by decide
  exact hall o ho o' ho'

namespace A35CoreDevice

@[simp] theorem isConnected_addPostConnectConfigItem :
    (this.addPostConnectConfigItem name value).isConnected = this.isConnected := rfl

@[simp] theorem lookup_addPostConnectConfigItem_self :
    (this.addPostConnectConfigItem name value).postConnectConfig.lookup name = some value :=
  AList.lookup_insert _

theorem lookup_addPostConnectConfigItem_ne {other : String} (h : other ≠ name) :
    (this.addPostConnectConfigItem name value).postConnectConfig.lookup other =
      this.postConnectConfig.lookup other := AList.lookup_insert_ne h

end A35CoreDevice

theorem recorded_addPostConnectConfigItem (optionValue : Bool) (h : Current known s this)
    (ho : o ∈ options) : ∀ o' ∈ options,
      (this.addPostConnectConfigItem o.2 (stringValue optionValue)).postConnectConfig.lookup o'.2 =
        ((s.behind ⟨.getOptionValue o.1, .ok optionValue⟩).read o'.1).map stringValue := by
  intro o' ho'
  have hread : (s.behind ⟨.getOptionValue o.1, .ok optionValue⟩).read =
      Function.update s.read o.1 (some optionValue) := rfl
  rw [hread]
  by_cases hsame : o'.1 = o.1
  · rw [(snd_eq_iff_of_options ho ho').mpr hsame, hsame]
    simp
  · have hitem : o'.2 ≠ o.2 := fun heq => hsame ((snd_eq_iff_of_options ho ho').mp heq)
    rw [A35CoreDevice.lookup_addPostConnectConfigItem_ne hitem, Function.update_of_ne hsame]
    exact h.recorded o' ho'

theorem Current.setConfig (optionValue : Bool) (h : Current known s this) (ho : o ∈ options)
    (hknown : ∀ e, known e → known' e) (hraised : Settled known' raised) :
    Current known' ((s.behind ⟨.getOptionValue o.1, .ok optionValue⟩).behind
      ⟨.setConfig o.2 (stringValue optionValue), raised⟩)
      (this.addPostConnectConfigItem o.2 (stringValue optionValue)) := by
  refine ⟨recorded_addPostConnectConfigItem optionValue h ho, fun hconnected name value hlookup => ?_⟩
  refine Tried.setConfig (fun hname => ?_) (fun hname => ?_) hraised
  · subst hname
    simpa using hlookup
  · rw [A35CoreDevice.lookup_addPostConnectConfigItem_ne hname] at hlookup
    exact (h.tried hconnected name value hlookup).mono hknown

theorem abides_applyOptions (h : Current known s this) (ho : o ∈ options) :
    Abides seen (fun out t => Current (fun e => known e ∨ out.1 = some e) t out.2)
      (this.applyOptions o.1 o.2) s := by
  refine abides_call fun optionValue => ?_
  cases optionValue with
  | error e => exact ⟨s, rfl, h.mono fun e => Or.inl⟩
  | ok optionValue =>
    refine ⟨_, rfl, ?_⟩
    -- the item is recorded before it is set, so that an exception does not lose it
    show Abides seen _ (this.setConfigWhenConnected o.2 (stringValue optionValue) >>= _) _
    unfold A35CoreDevice.setConfigWhenConnected
    by_cases hconnected : this.isConnected = true
    · simp only [A35CoreDevice.isConnected_addPostConnectConfigItem, hconnected, if_true]
      refine abides_call fun raised => ⟨_, rfl, abides_ite (fun hmissed => ?_) fun _ => ?_⟩
      · refine abides_pure (h.setConfig optionValue ho (fun e => Or.inl) fun e he => .inl ?_)
        exact Option.some.inj (he.symm.trans hmissed)
      · exact abides_pure (h.setConfig optionValue ho (fun e => Or.inl) fun e he => .inr (.inr he))
    · -- nothing is set, and the next connection will
      simp only [A35CoreDevice.isConnected_addPostConnectConfigItem, hconnected]
      exact ⟨recorded_addPostConnectConfigItem optionValue h ho, fun h => absurd h hconnected⟩

theorem abides_optionValuesChanged (h : Current known s this) :
    Abides seen (fun out t => Current (fun e => known e ∨ out.1 = some e) t out.2)
      this.optionValuesChanged s := by
  have hupdate : Abides seen (fun out t => Current (fun e => known e ∨ out.1 = some e) t out.2)
      this.updateDynamicOptions s := by
    have hdebug : ("options.rams.cacheDebug", cfgCacheDebugMode) ∈ options := by decide
    have hpreserve : ("options.rams.cachePreserve", cfgCachePreservationMode) ∈ options := by decide
    refine (abides_applyOptions h hdebug).bind fun out t hout => ?_
    refine abides_ite (fun _ => hout) fun hnone => ?_
    refine (abides_applyOptions hout hpreserve).mono fun out' t' hout' => hout'.mono fun e he => ?_
    rcases he with (he | he) | he
    · exact .inl he
    · exact absurd he (by rw [not_not.mp hnone]; simp)
    · exact .inr he
  refine abides_call fun connected => ⟨s, rfl, ?_⟩
  cases connected with
  | error e => exact h.mono fun e => Or.inl
  | ok connected =>
    cases connected with
    | false => exact hupdate
    | true => exact hupdate

theorem abides_perform_device (c : DeviceCall) (h : Current known s this) :
    Abides seen (fun out t => Current (fun e => known e ∨ out.1 = some e) t out.2)
      (c.perform this) s := by
  cases c with
  | openConn => exact abides_openConn h
  | closeConn =>
    refine abides_call fun raised => ⟨s, rfl, h.recorded, fun hconnected => ?_⟩
    cases hconnected
  | optionValuesChanged => exact abides_optionValuesChanged h

/-! ### Histories -/

structure Called where
  call : DeviceCall
  trace : List (Event Framework)
  raised : Option DtslException

inductive Calls : A35CoreDevice → Called → A35CoreDevice → Prop
  | call {this this' : A35CoreDevice} {c : DeviceCall} {l : List (Event Framework)}
      {raised : Option DtslException} : Run (c.perform this) l (.ok (raised, this')) →
      Calls this ⟨c, l, raised⟩ this'

/-- An `openConn` that raised nothing, with no `closeConn` behind it. -/
def Connects (calls : List Called) : Prop :=
  ∃ before l after, calls = before ++ ⟨.openConn, l, none⟩ :: after ∧
    ∀ c ∈ after, c.call ≠ .closeConn

theorem not_connects_nil : ¬Connects [] := by
  intro h
  obtain ⟨before, l, after, hcalls, -⟩ := h
  exact absurd hcalls.symm (List.append_ne_nil_of_right_ne_nil _ (List.cons_ne_nil _ _))

theorem connects_concat {calls : List Called} {c : Called} : Connects (calls ++ [c]) ↔
    (c.call = .openConn ∧ c.raised = none) ∨ (c.call ≠ .closeConn ∧ Connects calls) := by
  constructor
  · intro h
    obtain ⟨before, l, after, hcalls, hafter⟩ := h
    rcases List.eq_nil_or_concat after with rfl | ⟨after, d, rfl⟩
    · obtain ⟨-, hlast⟩ := List.append_inj' hcalls rfl
      obtain rfl := List.head_eq_of_cons_eq hlast
      exact .inl ⟨rfl, rfl⟩
    · rw [List.concat_eq_append, ← List.cons_append, ← List.append_assoc] at hcalls
      obtain ⟨hinit, hlast⟩ := List.append_inj' hcalls rfl
      obtain rfl := List.head_eq_of_cons_eq hlast
      rw [List.concat_eq_append, List.forall_mem_append] at hafter
      exact .inr ⟨hafter.2 _ List.mem_cons_self, before, l, after, hinit, hafter.1⟩
  · intro h
    rcases h with ⟨hcall, hraised⟩ | ⟨hcall, before, l, after, rfl, hafter⟩
    · obtain ⟨call, l, raised⟩ := c
      subst hcall hraised
      exact ⟨calls, l, [], rfl, fun c hc => by cases hc⟩
    · refine ⟨before, l, after ++ [c], by rw [List.append_assoc, List.cons_append], ?_⟩
      rw [List.forall_mem_append, List.forall_mem_singleton]
      exact ⟨hafter, hcall⟩

theorem returns_openConn : Returns this.openConn fun out =>
    out.2.isConnected = true ↔ out.1 = none ∨ this.isConnected = true := by
  rw [A35CoreDevice.openConn]
  refine returns_true.bind fun raised _ => returns_ite (fun hraised => ?_) fun _ => ?_
  · exact returns_pure (or_iff_right hraised).symm
  refine returns_true.bind fun items _ => returns_true.bind fun raised _ => ?_
  refine returns_ite (fun hraised => ?_) fun _ => ?_
  · exact returns_pure (or_iff_right hraised).symm
  · exact returns_pure (iff_of_true rfl (.inl rfl))

theorem returns_applyOptions {optionName : String} : Returns (this.applyOptions optionName cfgItem)
    fun out => out.2.isConnected = this.isConnected := by
  rw [A35CoreDevice.applyOptions]
  refine returns_true.bind fun optionValue _ => ?_
  cases optionValue with
  | error e => exact returns_pure rfl
  | ok optionValue =>
    have hset : Returns (this.setConfigWhenConnected cfgItem (stringValue optionValue)) fun out =>
        out.2.isConnected = this.isConnected := by
      rw [A35CoreDevice.setConfigWhenConnected]
      refine returns_ite (fun _ => ?_) fun _ => returns_pure rfl
      exact returns_true.bind fun raised _ => returns_pure rfl
    exact hset.bind fun out hout => returns_ite (fun _ => returns_pure hout) fun _ => returns_pure hout

theorem returns_optionValuesChanged : Returns this.optionValuesChanged fun out =>
    out.2.isConnected = this.isConnected := by
  have hupdate : Returns this.updateDynamicOptions fun out =>
      out.2.isConnected = this.isConnected := by
    refine returns_applyOptions.bind fun out hout => ?_
    refine returns_ite (fun _ => returns_pure hout) fun _ => ?_
    exact returns_applyOptions.mono fun out' hout' => hout'.trans hout
  rw [A35CoreDevice.optionValuesChanged]
  refine returns_true.bind fun connected _ => ?_
  cases connected with
  | error e => exact returns_pure rfl
  | ok connected =>
    cases connected with
    | false => exact hupdate
    | true => exact hupdate

theorem isConnected_of_call {this' : A35CoreDevice} {c : Called} (h : Calls this c this') :
    this'.isConnected = true ↔
      (c.call = .openConn ∧ c.raised = none) ∨ (c.call ≠ .closeConn ∧ this.isConnected = true) := by
  obtain ⟨hrun⟩ := h
  rename_i call l raised
  cases call with
  | openConn => simpa using returns_openConn _ _ hrun
  | closeConn =>
    have hclosed : Returns this.closeConn fun out => out.2.isConnected = false :=
      returns_true.bind fun raised _ => returns_pure rfl
    simpa using hclosed _ _ hrun
  | optionValuesChanged =>
    have hkept : this'.isConnected = this.isConnected := returns_optionValuesChanged _ _ hrun
    simp [hkept]

/-- The core says that it is connected just if the last connection that was made was not ended. -/
theorem isConnected_iff {calls : List Called} (h : Steps Calls {} calls this) :
    this.isConnected = true ↔ Connects calls := by
  have hnew : ({} : A35CoreDevice).isConnected = true ↔ Connects [] :=
    iff_of_false (by simp) not_connects_nil
  have hstep (before : List Called) (this : A35CoreDevice) (c : Called) (this' : A35CoreDevice)
      (hbefore : this.isConnected = true ↔ Connects before) (hcall : Calls this c this') :
      this'.isConnected = true ↔ Connects (before ++ [c]) := by
    rw [connects_concat, ← hbefore]
    exact isConnected_of_call hcall
  exact Steps.invariant (P := fun calls this => this.isConnected = true ↔ Connects calls) hstep hnew h

theorem current_of_calls {this' : A35CoreDevice} {calls : List Called}
    (h : Steps Calls this calls this') (hcurrent : Current known s this) :
    Current (fun e => known e ∨ ∃ c ∈ calls, c.raised = some e)
      ((calls.flatMap Called.trace).foldl Seen.behind s) this' := by
  induction h generalizing known s with
  | nil this => exact hcurrent.mono fun e => Or.inl
  | cons hcall _ ih =>
    -- what this call raises is known to the debugger in the rest of the history
    obtain ⟨hrun⟩ := hcall
    obtain ⟨t, hfollow, hout⟩ := (abides_perform_device _ hcurrent).follow hrun
    rw [follow_some] at hfollow
    rw [List.flatMap_cons, List.foldl_append, Option.some.inj hfollow]
    refine (ih (hout _ rfl)).mono fun e he => ?_
    rcases he with (he | he) | ⟨c, hc, he⟩
    · exact .inl he
    · exact .inr ⟨_, List.mem_cons_self, he⟩
    · exact .inr ⟨c, List.mem_cons_of_mem _ hc, he⟩

theorem current_new : Current known {} {} :=
  ⟨fun o _ => rfl, fun hconnected => by cases hconnected⟩

/-- In every history, whatever is raised in it and in whatever order a dictionary gives its items:
while the core is connected, the last attempt to set the item of an option was with what the option
was last read as. It was accepted, or missed by the firmware, or what it raised was raised to the
debugger. -/
theorem calls_options {calls : List Called} (h : Steps Calls {} calls this)
    (hconnected : this.isConnected = true) (ho : o ∈ options) {optionValue : Bool}
    (hread : (Seen.of (calls.flatMap Called.trace)).read o.1 = some optionValue) :
    ∃ raised, (Seen.of (calls.flatMap Called.trace)).tried o.2 = some (stringValue optionValue, raised) ∧
      ∀ e, raised = some e → e = .native .itemNotSup ∨ ∃ c ∈ calls, c.raised = some e := by
  have hcurrent : Current (fun _ => False) {} {} := current_new
  have hend := current_of_calls h hcurrent
  have hlookup := hend.recorded o ho
  rw [← Seen.of, hread, Option.map_some] at hlookup
  obtain ⟨raised, htried, hsettled⟩ := hend.tried hconnected _ _ hlookup
  refine ⟨raised, htried, fun e he => (hsettled e he).imp_right fun hknown => ?_⟩
  simpa using hknown

/-- A framework whose firmware misses the preservation mode, with the cache debug mode switched on. -/
def olderFirmware : Machine Framework Unit where
  answer
    | .openConn, s => (none, s)
    | .closeConn, s => (none, s)
    | .isConnected, s => (.ok false, s)
    | .setConfig name _, s =>
      (if name = cfgCachePreservationMode then some (.native .itemNotSup) else none, s)
    | .getOptionValue optionName, s => (.ok (optionName = "options.rams.cacheDebug"), s)
    | .items config, s => (⟨config.entries, .refl _⟩, s)

def returned {α : Type} : Except Empty α → α
  | .ok a => a
  | .error e => nomatch e

theorem ok_returned {α : Type} (r : Except Empty α) : .ok (returned r) = r := by
  cases r with
  | ok a => rfl
  | error e => cases e

def DeviceCall.called (c : DeviceCall) (this : A35CoreDevice) : Called × A35CoreDevice :=
  let out := olderFirmware.exec (c.perform this) ()
  (⟨c, out.2.1, (returned out.1).1⟩, (returned out.1).2)

theorem calls_called (c : DeviceCall) (this : A35CoreDevice) :
    Calls this (c.called this).1 (c.called this).2 := by
  refine .call (c := c) ?_
  have hrun := olderFirmware.exec_run (c.perform this) ()
  rwa [← ok_returned (olderFirmware.exec (c.perform this) ()).1] at hrun

def sampleCalls : List Called :=
  let changed := DeviceCall.optionValuesChanged.called {}
  [changed.1, (DeviceCall.openConn.called changed.2).1]

theorem calls_options_older : ∃ raised, (Seen.of (sampleCalls.flatMap Called.trace)).tried
    cfgCachePreservationMode = some ("0", raised) := by
  have hsteps : Steps Calls {} sampleCalls _ :=
    .cons (calls_called _ _) (.cons (calls_called _ _) (.nil _))
  have ho : ("options.rams.cachePreserve", cfgCachePreservationMode) ∈ options := by decide
  have hread : (Seen.of (sampleCalls.flatMap Called.trace)).read "options.rams.cachePreserve" =
      some false := by decide +kernel
  obtain ⟨raised, htried, -⟩ := calls_options hsteps (by decide +kernel) ho hread
  exact ⟨raised, htried⟩

end
end SecureDebug.Rams
