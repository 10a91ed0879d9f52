import SecureDebug.Driver.Defs

/-! What the register traffic of a run looks like from the device, and the raw access
routines, polls and single-byte transfers in those terms. -/

namespace SecureDebug
open Interaction Program

/-- What happens between the driver and its surroundings: a status value or a data byte the
driver was given, a byte the device took (`ok` if the callback reported success), a byte the
callback was handed but did not report as taken, and the two reset callbacks with their
codes. -/
inductive Observation where
  | status (srVal : UInt32)
  | read (byte : UInt8)
  | wrote (byte : UInt8) (ok : Bool)
  | offered (byte : UInt8)
  | resetStart (result : SDMReturnCode)
  | resetEnd (result : SDMReturnCode)
  deriving DecidableEq, Repr

def heard : Observation → Option UInt8
  | .read byte => some byte
  | _ => none

namespace ExternalComPortDriver
variable (this : ExternalComPortDriver)

/-- One access of a batch: `performed` if the callback counted it, `ok` if it counted all of
them and returned success; `value` is what a read left behind. -/
def observeAccess (ok performed : Bool) (access : SDMRegisterAccess) (value : UInt32) :
    List Observation :=
  match access.op with
  | .write =>
    if access.address = this.regAddr regDR ∨ access.address = this.regAddr regDBR then
      [if performed then .wrote access.value.toUInt8 ok else .offered access.value.toUInt8]
    else []
  | .read =>
    if ok = false then []
    else if access.address = this.regAddr regDR then [.read value.toUInt8]
    else if access.address = this.regAddr regSR then [.status value]
    else []

def observeAccesses (ok : Bool) : List SDMRegisterAccess → Nat → List UInt32 → List Observation
  | [], _, _ => []
  | access :: accesses, completed, values =>
    this.observeAccess ok (completed ≠ 0) access (values.headD 0) ++
      observeAccesses ok accesses (completed - 1) values.tail

def observeEvent : Event Host → List Observation
  | ⟨.registerAccess accesses, (a : AccessResult)⟩ =>
    this.observeAccesses (a.result = .success && a.accessesCompleted = accesses.length)
      accesses a.accessesCompleted a.values
  | ⟨.resetStart, (result : SDMReturnCode)⟩ => [.resetStart result]
  | ⟨.resetEnd, (result : SDMReturnCode)⟩ => [.resetEnd result]
  | _ => []

def observe (l : Trace) : List Observation := l.flatMap this.observeEvent

@[simp] theorem observe_nil : this.observe [] = [] := rfl

theorem observe_append (l l' : Trace) : this.observe (l ++ l') = this.observe l ++ this.observe l' :=
  List.flatMap_append

theorem observe_cons (e : Event Host) (l : Trace) :
    this.observe (e :: l) = this.observeEvent e ++ this.observe l := List.flatMap_cons

/-! ### Addresses -/

theorem regAddr_inj {reg reg' : UInt32} : this.regAddr reg = this.regAddr reg' ↔ reg = reg' := by
  rw [regAddr, regAddr, UInt32.toUInt64_inj]
  exact UInt32.add_right_inj this.mComDeviceRegisterBase

/-! ### Answers to an access -/

def statusResult (a : AccessResult) : SDMReturnCode × Status :=
  if a.result ≠ .success then (a.result, {})
  else if a.accessesCompleted ≠ 1 then (.requestFailed, {})
  else (.success, statusOfSR (a.values.getD 0 0))

def writeResult (n : Nat) (a : AccessResult) : SDMReturnCode :=
  if a.accessesCompleted ≠ n then .requestFailed else a.result

def readResult (a : AccessResult) : SDMReturnCode × List UInt8 :=
  if a.result ≠ .success then (a.result, [0])
  else if a.accessesCompleted ≠ 1 then (.requestFailed, [0])
  else (.success, [(a.values.getD 0 0).toUInt8])

theorem writeResult_eq_success {n : Nat} {a : AccessResult} :
    writeResult n a = .success ↔ a.result = .success ∧ a.accessesCompleted = n := by
  rw [writeResult]
  split_ifs with h
  · simp [h]
  · simpa using fun _ => not_not.mp h

theorem readResult_eq_success {a : AccessResult} {bytes : List UInt8} :
    readResult a = (.success, bytes) ↔
      (a.result = .success ∧ a.accessesCompleted = 1) ∧ bytes = [(a.values.headD 0).toUInt8] := by
  rw [readResult]
  by_cases h₁ : a.result = .success
  · by_cases h₂ : a.accessesCompleted = 1
    · simp only [h₁, h₂, ne_eq, not_true_eq_false, if_false, Prod.mk.injEq, true_and, and_self]
      rw [eq_comm]
      cases a.values <;> rfl
    · simp [h₁, h₂]
  · simp [h₁]

/-! ### One access -/

def statusEvent (a : AccessResult) : Event Host := ⟨.registerAccess [this.statusAccess], a⟩

def writeEvent (block : Bool) (bytes : List UInt8) (a : AccessResult) : Event Host :=
  ⟨.registerAccess (bytes.map (this.writeAccess block)), a⟩

def readEvent (a : AccessResult) : Event Host := ⟨.registerAccess [this.readAccess], a⟩

theorem toUInt8_writeAccess (block : Bool) (byte : UInt8) :
    (this.writeAccess block byte).value.toUInt8 = byte := by
  rw [writeAccess, UInt32.toUInt8_or, UInt8.toUInt8_toUInt32]
  exact UInt8.zero_or

theorem observeAccesses_write (ok block : Bool) (bytes : List UInt8) (completed : Nat)
    (values : List UInt32) :
    this.observeAccesses ok (bytes.map (this.writeAccess block)) completed values =
      (bytes.take completed).map (.wrote · ok) ++ (bytes.drop completed).map .offered := by
  have haddr (byte : UInt8) : (this.writeAccess block byte).address = this.regAddr regDR ∨
      (this.writeAccess block byte).address = this.regAddr regDBR := by
    cases block
    · exact .inl rfl
    · exact .inr rfl
  induction bytes generalizing completed values with
  | nil => simp [observeAccesses]
  | cons byte bytes ih =>
    rw [List.map_cons, observeAccesses, ih, observeAccess]
    show (if _ then _ else _) ++ _ = _
    rw [if_pos (haddr byte), toUInt8_writeAccess]
    cases completed <;> simp

theorem observe_writeEvent (block : Bool) (bytes : List UInt8) (a : AccessResult) :
    this.observeEvent (this.writeEvent block bytes a) =
      (bytes.take a.accessesCompleted).map (.wrote · (writeResult bytes.length a = .success)) ++
        (bytes.drop a.accessesCompleted).map .offered := by
  have h := this.observeAccesses_write (a.result = .success && a.accessesCompleted = bytes.length)
    block bytes a.accessesCompleted a.values
  have hok : (decide (writeResult bytes.length a = .success)) =
      (decide (a.result = .success) && decide (a.accessesCompleted = bytes.length)) := by
    rw [← Bool.decide_and]
    exact decide_eq_decide.mpr writeResult_eq_success
  rw [hok, ← h, writeEvent, observeEvent, List.length_map]

theorem observe_statusEvent (a : AccessResult) :
    this.observeEvent (this.statusEvent a) =
      if a.result = .success ∧ a.accessesCompleted = 1 then [.status (a.values.headD 0)] else [] := by
  have hne : this.regAddr regSR ≠ this.regAddr regDR := fun h =>
    absurd ((this.regAddr_inj).mp h) (by decide)
  show this.observeAccesses _ [this.statusAccess] _ _ = _
  by_cases h : a.result = .success ∧ a.accessesCompleted = 1
  · simp [observeAccesses, observeAccess, statusAccess, hne, h]
  · rw [if_neg h]
    simp only [observeAccesses, observeAccess, statusAccess]
    rw [if_pos (by simpa using h)]
    rfl

theorem observe_readEvent (a : AccessResult) :
    this.observeEvent (this.readEvent a) =
      if a.result = .success ∧ a.accessesCompleted = 1 then [.read (a.values.headD 0).toUInt8]
      else [] := by
  show this.observeAccesses _ [this.readAccess] _ _ = _
  by_cases h : a.result = .success ∧ a.accessesCompleted = 1
  · simp [observeAccesses, observeAccess, readAccess, h]
  · rw [if_neg h]
    simp only [observeAccesses, observeAccess, readAccess]
    rw [if_pos (by simpa using h)]
    rfl

/-! ### The raw access routines -/

theorem eComStatus_eq : this.eComStatus =
    this.registerAccess [this.statusAccess] >>= fun a => pure (statusResult a) := by
  rw [eComStatus]
  congr 1
  funext a
  rw [statusResult]
  split_ifs with h₁ h₂ <;> simp_all

theorem eComTxRaw_eq (block : Bool) {bytes : List UInt8} (h : bytes ≠ []) :
    this.eComTxRaw block bytes = this.registerAccess (bytes.map (this.writeAccess block)) >>=
      fun a => pure (writeResult bytes.length a) := by
  rw [eComTxRaw, if_neg (by simpa using h)]
  congr 1
  funext a
  rw [writeResult]
  split_ifs <;> rfl

theorem eComRxRaw_eq_copy {numBytes outBytesLength : Nat} (hnum : numBytes ≠ 0)
    (hout : outBytesLength ≠ 0) (hcount : numBytes < 2 ^ 32) (outBytes : List UInt8) :
    this.eComRxRaw numBytes outBytes outBytesLength =
      this.registerAccess (List.replicate numBytes this.readAccess) >>= fun a =>
        if a.result ≠ .success then pure (a.result, outBytes)
        else if a.accessesCompleted ≠ numBytes then pure (.requestFailed, outBytes)
        else lift (rxRawCopy outBytesLength ((List.range numBytes).map fun i => a.values.getD i 0) 0
          numBytes outBytes) >>= fun outBytes => pure (a.result, outBytes) := by
  rw [eComRxRaw, if_neg (not_or.mpr ⟨hnum, hout⟩)]
  show ((if numBytes ≥ 2 ^ 32 then _ else _) : Sdm _) = _
  rw [if_neg (Nat.not_le.mpr hcount)]

theorem eComRxRaw_eq : this.eComRxRaw 1 [0] 1 =
    this.registerAccess [this.readAccess] >>= fun a => pure (readResult a) := by
  rw [this.eComRxRaw_eq_copy Nat.one_ne_zero Nat.one_ne_zero (by decide)]
  congr 1
  funext a
  rw [readResult]
  by_cases h₁ : a.result = .success
  · by_cases h₂ : a.accessesCompleted = 1
    · simp only [h₁, h₂, ne_eq, not_true_eq_false, if_false]
      rfl
    · simp [h₁, h₂]
  · simp [h₁]

/-! ### Polling -/

def pollResult (level : Status → UInt8) (a : AccessResult) : Except SDMReturnCode Bool :=
  let (result, status) := statusResult a
  if result ≠ .success then .error result
  else if status.linkErrs ≠ 0 then .error .ioError
  else if status.txOverflow ≠ 0 then .error .ioError
  else .ok (level status ≠ 0)

theorem pollOnce_eq (level : Status → UInt8) : this.pollOnce level =
    this.registerAccess [this.statusAccess] >>= fun a => pure (pollResult level a) := by
  rw [pollOnce, eComStatus_eq, bind_assoc]
  congr 1
  funext a
  rw [pure_bind, pollResult]
  dsimp only
  split_ifs <;> rfl

/-- `Polls level left as x`: with `left` retries to go the poll loop takes the answers `as`,
one each turn, and leaves with `x`. -/
inductive Polls (level : Status → UInt8) : Nat → List AccessResult → Except SDMReturnCode Nat → Prop
  | failed {left : Nat} {a : AccessResult} {code : SDMReturnCode}
      (h : pollResult level a = .error code) : Polls level left [a] (.error code)
  | ready {left : Nat} {a : AccessResult} (h : pollResult level a = .ok true) :
      Polls level left [a] (.ok (maxRetries - left))
  | exhausted {a : AccessResult} (h : pollResult level a = .ok false) :
      Polls level 0 [a] (.ok (maxRetries + 1))
  | again {left : Nat} {a : AccessResult} {as : List AccessResult} {x : Except SDMReturnCode Nat}
      (h : pollResult level a = .ok false) (h' : Polls level left as x) :
      Polls level (left + 1) (a :: as) x

theorem pollLoop_eq (level : Status → UInt8) (left : Nat) : this.pollLoop level left =
    this.registerAccess [this.statusAccess] >>= fun a => match pollResult level a with
      | .error result => pure (.error result)
      | .ok true => pure (.ok (maxRetries - left))
      | .ok false => match left with
        | 0 => pure (.ok (maxRetries + 1))
        | left + 1 => this.pollLoop level left := by
  conv_lhs => unfold pollLoop
  rw [pollOnce_eq, bind_assoc]
  rfl

variable {this} {level : Status → UInt8} {left : Nat} {l : Trace}

theorem run_access_bind {β : Type} {accesses : List SDMRegisterAccess} {f : AccessResult → Sdm β}
    {r : Except Stop β} (hcb : this.mRegisterAccessCallback = true) :
    Run (this.registerAccess accesses >>= f) l r ↔
      ∃ (a : AccessResult) (l' : Trace), l = ⟨.registerAccess accesses, a⟩ :: l' ∧ Run (f a) l' r := by
  rw [registerAccess, if_pos hcb]
  exact run_call

theorem run_access_bind_of_null {β : Type} {accesses : List SDMRegisterAccess}
    {f : AccessResult → Sdm β} {r : Except Stop β} (hcb : this.mRegisterAccessCallback = false) :
    Run (this.registerAccess accesses >>= f) l r ↔ l = [] ∧ r = .error .badFunctionCall := by
  rw [registerAccess, if_neg (by simp [hcb])]
  exact run_halt

theorem exec_access_bind {σ β : Type} {m : Machine Host σ} {accesses : List SDMRegisterAccess}
    {a : AccessResult} {s t : σ} (hcb : this.mRegisterAccessCallback = true)
    (ha : m.answer (.registerAccess accesses) s = (a, t)) (f : AccessResult → Sdm β) :
    m.exec (this.registerAccess accesses >>= f) s = ((m.exec (f a) t).1,
      ⟨.registerAccess accesses, a⟩ :: (m.exec (f a) t).2.1, (m.exec (f a) t).2.2) := by
  rw [registerAccess, if_pos hcb]
  show m.exec (.call (.registerAccess accesses) f) s = _
  rw [Machine.exec, ha]

theorem run_pollLoop {r : Except Stop (Except SDMReturnCode Nat)}
    (hcb : this.mRegisterAccessCallback = true) (h : Run (this.pollLoop level left) l r) :
    ∃ as x, l = as.map this.statusEvent ∧ r = .ok x ∧ Polls level left as x := by
  induction left generalizing l with
  | zero =>
    rw [pollLoop_eq, run_access_bind hcb] at h
    obtain ⟨a, l', rfl, h⟩ := h
    cases hp : pollResult level a with
    | error code =>
      obtain ⟨rfl, rfl⟩ := run_pure.mp (by simpa only [hp] using h)
      exact ⟨[a], _, rfl, rfl, .failed hp⟩
    | ok b =>
      cases b with
      | true =>
        obtain ⟨rfl, rfl⟩ := run_pure.mp (by simpa only [hp] using h)
        exact ⟨[a], _, rfl, rfl, .ready hp⟩
      | false =>
        obtain ⟨rfl, rfl⟩ := run_pure.mp (by simpa only [hp] using h)
        exact ⟨[a], _, rfl, rfl, .exhausted hp⟩
  | succ left ih =>
    rw [pollLoop_eq, run_access_bind hcb] at h
    obtain ⟨a, l', rfl, h⟩ := h
    cases hp : pollResult level a with
    | error code =>
      obtain ⟨rfl, rfl⟩ := run_pure.mp (by simpa only [hp] using h)
      exact ⟨[a], _, rfl, rfl, .failed hp⟩
    | ok b =>
      cases b with
      | true =>
        obtain ⟨rfl, rfl⟩ := run_pure.mp (by simpa only [hp] using h)
        exact ⟨[a], _, rfl, rfl, .ready hp⟩
      | false =>
        simp only [hp] at h
        obtain ⟨as, x, rfl, rfl, hx⟩ := ih h
        exact ⟨a :: as, x, rfl, rfl, .again hp hx⟩

/-- The loop passes over answers that are not ready and leaves at one that ends it: an error,
a ready one, or the last it may look at. -/
theorem Polls.split {as : List AccessResult} {x : Except SDMReturnCode Nat}
    (h : Polls level left as x) :
    ∃ as' a, as = as' ++ [a] ∧ (∀ b ∈ as', pollResult level b = .ok false) ∧
      ((∃ code, pollResult level a = .error code ∧ x = .error code) ∨
       (pollResult level a = .ok true ∧ as'.length ≤ left ∧
          x = .ok (maxRetries - (left - as'.length))) ∨
       (pollResult level a = .ok false ∧ as'.length = left ∧ x = .ok (maxRetries + 1))) := by
  induction h with
  | failed h => exact ⟨[], _, rfl, by simp, .inl ⟨_, h, rfl⟩⟩
  | ready h => exact ⟨[], _, rfl, by simp, .inr (.inl ⟨h, Nat.zero_le _, rfl⟩)⟩
  | exhausted h => exact ⟨[], _, rfl, by simp, .inr (.inr ⟨h, rfl, rfl⟩)⟩
  | @again left a as x h h' ih =>
    obtain ⟨as', b, rfl, hall, hb⟩ := ih
    refine ⟨a :: as', b, rfl, List.forall_mem_cons.mpr ⟨h, hall⟩, ?_⟩
    rw [List.length_cons]
    rcases hb with hb | ⟨hb, hle, rfl⟩ | ⟨hb, hlen, rfl⟩
    · exact .inl hb
    · exact .inr (.inl ⟨hb, Nat.succ_le_succ hle, by rw [Nat.add_sub_add_right]⟩)
    · exact .inr (.inr ⟨hb, congrArg Nat.succ hlen, rfl⟩)

/-! ### One byte each way -/

def traffic (this : ExternalComPortDriver) (l : Trace) : List Observation :=
  (this.observe l).filter fun o => !(o matches .status _)

@[simp] theorem traffic_nil : this.traffic [] = [] := rfl

theorem traffic_append (l l' : Trace) :
    this.traffic (l ++ l') = this.traffic l ++ this.traffic l' := by
  rw [traffic, observe_append, List.filter_append, traffic, traffic]

@[simp] theorem traffic_statusEvents (as : List AccessResult) :
    this.traffic (as.map this.statusEvent) = [] := by
  induction as with
  | nil => rfl
  | cons a as ih =>
    rw [List.map_cons, traffic, observe_cons, List.filter_append, observe_statusEvent]
    rw [traffic] at ih
    rw [ih]
    split_ifs <;> rfl

theorem traffic_writeEvent (block : Bool) (bytes : List UInt8) (a : AccessResult) :
    this.traffic [this.writeEvent block bytes a] =
      (bytes.take a.accessesCompleted).map (.wrote · (writeResult bytes.length a = .success)) ++
        (bytes.drop a.accessesCompleted).map .offered := by
  rw [traffic, observe_cons, observe_writeEvent, observe_nil, List.append_nil, List.filter_eq_self]
  intro o ho
  rcases List.mem_append.mp ho with ho | ho <;> obtain ⟨b, -, rfl⟩ := List.mem_map.mp ho <;> rfl

theorem traffic_readEvent (a : AccessResult) : this.traffic [this.readEvent a] =
    if a.result = .success ∧ a.accessesCompleted = 1 then [.read (a.values.headD 0).toUInt8]
    else [] := by
  rw [traffic, observe_cons, observe_readEvent, observe_nil, List.append_nil]
  split_ifs <;> rfl

theorem pollResult_error_ne {a : AccessResult} {code : SDMReturnCode}
    (h : pollResult level a = .error code) : code ≠ .success := by
  rw [pollResult] at h
  dsimp only at h
  split_ifs at h with h₁ <;> cases h
  · exact h₁
  · decide
  · decide

theorem Polls.error_ne {as : List AccessResult} {code : SDMReturnCode}
    (h : Polls level left as (.error code)) : code ≠ .success := by
  obtain ⟨as', a, -, -, ⟨code', ha, hcode⟩ | ⟨-, -, hx⟩ | ⟨-, -, hx⟩⟩ := h.split
  · cases hcode
    exact pollResult_error_ne ha
  · cases hx
  · cases hx

/-- A poll loop followed by one batch of accesses, the common shape of `EComSendByte` and
`EComReadByte`: `fail` is what they return without an access, `finish` what they return
after it. -/
def polledAccess {β : Type} (this : ExternalComPortDriver) (level : Status → UInt8)
    (fail : SDMReturnCode → β) (accesses : List SDMRegisterAccess) (finish : AccessResult → β) :
    Sdm β := do
  match ← this.pollLoop level maxRetries with
  | .error result => return fail result
  | .ok retries =>
    if retries ≥ maxRetries then return fail .timeoutError
    let a ← this.registerAccess accesses
    return finish a

/-- How `EComReadByte` ends after its read, with `byte` the old value of `*byte`. -/
def readByteResult (byte : UInt8) (a : AccessResult) : SDMReturnCode × UInt8 :=
  if (readResult a).1 = .success then (.success, (a.values.headD 0).toUInt8)
  else ((readResult a).1, byte)

theorem eComSendByte_eq (byte : UInt8) : this.eComSendByte byte =
    this.polledAccess Status.txFree id [this.writeAccess false byte] (writeResult 1) := by
  rw [eComSendByte, polledAccess]
  congr 1
  funext x
  cases x with
  | error result => rfl
  | ok retries =>
    dsimp only
    split_ifs
    · rfl
    · rw [this.eComTxRaw_eq false (List.cons_ne_nil byte []), bind_assoc]
      congr 1
      funext a
      rw [pure_bind]
      by_cases h : writeResult 1 a = .success <;> simp [h]

theorem eComReadByte_eq (byte : UInt8) : this.eComReadByte byte =
    this.polledAccess Status.rxData (·, byte) [this.readAccess] (readByteResult byte) := by
  rw [eComReadByte, polledAccess]
  congr 1
  funext x
  cases x with
  | error result => rfl
  | ok attempt =>
    dsimp only
    split_ifs
    · rfl
    · rw [eComRxRaw_eq, bind_assoc]
      congr 1
      funext a
      rw [pure_bind, readByteResult]
      rcases hr : readResult a with ⟨result, bytes⟩
      by_cases h : result = .success
      · subst h
        obtain ⟨-, rfl⟩ := readResult_eq_success.mp hr
        rfl
      · simp [h]

theorem run_polledAccess {β : Type} {fail : SDMReturnCode → β} {accesses : List SDMRegisterAccess}
    {finish : AccessResult → β} {r : Except Stop β} (hcb : this.mRegisterAccessCallback = true)
    (h : Run (this.polledAccess level fail accesses finish) l r) :
    ∃ as x, Polls level maxRetries as x ∧
      ((∃ code, x = .error code ∧ l = as.map this.statusEvent ∧ r = .ok (fail code)) ∨
       (∃ n, x = .ok n ∧ maxRetries ≤ n ∧ l = as.map this.statusEvent ∧
          r = .ok (fail .timeoutError)) ∨
       (∃ n a, x = .ok n ∧ n < maxRetries ∧
          l = as.map this.statusEvent ++ [⟨.registerAccess accesses, a⟩] ∧ r = .ok (finish a))) := by
  rw [polledAccess, run_bind] at h
  rcases h with ⟨x, l₁, l₂, rfl, h₁, h₂⟩ | ⟨e, rfl, he⟩
  · obtain ⟨as, x', rfl, hx, hp⟩ := run_pollLoop hcb h₁
    cases hx
    refine ⟨as, x, hp, ?_⟩
    cases x with
    | error code =>
      obtain ⟨rfl, rfl⟩ := run_pure.mp h₂
      exact .inl ⟨code, rfl, List.append_nil _, rfl⟩
    | ok n =>
      dsimp only at h₂
      split_ifs at h₂ with hn
      · obtain ⟨rfl, rfl⟩ := run_pure.mp h₂
        exact .inr (.inl ⟨n, rfl, hn, List.append_nil _, rfl⟩)
      · obtain ⟨a, l', rfl, h'⟩ := (run_access_bind hcb).mp h₂
        obtain ⟨rfl, rfl⟩ := run_pure.mp h'
        exact .inr (.inr ⟨n, a, rfl, Nat.lt_of_not_le hn, rfl, rfl⟩)
  · obtain ⟨as, x', rfl, hx, hp⟩ := run_pollLoop hcb he
    cases hx

theorem run_polledAccess_of_null {β : Type} {fail : SDMReturnCode → β}
    {accesses : List SDMRegisterAccess} {finish : AccessResult → β} {r : Except Stop β}
    (hcb : this.mRegisterAccessCallback = false)
    (h : Run (this.polledAccess level fail accesses finish) l r) :
    l = [] ∧ r = .error .badFunctionCall := by
  rw [polledAccess, pollLoop_eq, bind_assoc] at h
  exact (run_access_bind_of_null hcb).mp h

/-- What a run of `EComSendByte` exchanges: at most the byte itself, and it succeeds just if
the device has taken it and nobody reported an error. -/
theorem run_eComSendByte {byte : UInt8} {r : Except Stop SDMReturnCode}
    (h : Run (this.eComSendByte byte) l r) :
    (r = .ok .success ∧ this.traffic l = [.wrote byte true]) ∨
      (r ≠ .ok .success ∧ (this.traffic l = [] ∨ this.traffic l = [.offered byte] ∨
        this.traffic l = [.wrote byte false])) := by
  rw [eComSendByte_eq] at h
  cases hcb : this.mRegisterAccessCallback with
  | false =>
    obtain ⟨rfl, rfl⟩ := run_polledAccess_of_null hcb h
    exact .inr ⟨by simp, .inl rfl⟩
  | true =>
    obtain ⟨as, x, hp, ⟨code, rfl, rfl, rfl⟩ | ⟨n, rfl, -, rfl, rfl⟩ | ⟨n, a, rfl, -, rfl, rfl⟩⟩ :=
      run_polledAccess hcb h
    · exact .inr ⟨by simpa using hp.error_ne, .inl (traffic_statusEvents as)⟩
    · exact .inr ⟨by simp, .inl (traffic_statusEvents as)⟩
    · have ht := this.traffic_writeEvent false [byte] a
      rw [writeEvent, List.map_singleton] at ht
      rw [traffic_append, traffic_statusEvents, List.nil_append, ht, List.length_singleton]
      by_cases hres : writeResult 1 a = .success
      · obtain ⟨-, hdone⟩ := writeResult_eq_success.mp hres
        exact .inl ⟨congrArg Except.ok hres, by simp [hres, hdone]⟩
      · refine .inr ⟨fun hr => hres (Except.ok.inj hr), .inr ?_⟩
        cases hdone : a.accessesCompleted with
        | zero => exact .inl (by simp)
        | succ k => exact .inr (by simp [hres])

theorem run_eComReadByte {byte : UInt8} {r : Except Stop (SDMReturnCode × UInt8)}
    (h : Run (this.eComReadByte byte) l r) :
    (this.traffic l = [] ∧ ∀ code v, r = .ok (code, v) → code ≠ .success) ∨
      ∃ v, this.traffic l = [.read v] ∧ r = .ok (.success, v) := by
  rw [eComReadByte_eq] at h
  cases hcb : this.mRegisterAccessCallback with
  | false =>
    obtain ⟨rfl, rfl⟩ := run_polledAccess_of_null hcb h
    exact .inl ⟨rfl, by simp⟩
  | true =>
    obtain ⟨as, x, hp, ⟨code, rfl, rfl, rfl⟩ | ⟨n, rfl, -, rfl, rfl⟩ | ⟨n, a, rfl, -, rfl, rfl⟩⟩ :=
      run_polledAccess hcb h
    · exact .inl ⟨traffic_statusEvents as, by simpa using hp.error_ne⟩
    · exact .inl ⟨traffic_statusEvents as, by simp⟩
    · have ht := this.traffic_readEvent a
      rw [readEvent] at ht
      rw [traffic_append, traffic_statusEvents, List.nil_append, ht, readByteResult]
      rcases hr : readResult a with ⟨result, bytes⟩
      by_cases hs : result = .success
      · subst hs
        obtain ⟨ha, -⟩ := readResult_eq_success.mp hr
        exact .inr ⟨_, if_pos ha, rfl⟩
      · have hna : ¬(a.result = .success ∧ a.accessesCompleted = 1) := fun ha => by
          rw [readResult, if_neg (by simp [ha.1]), if_neg (by simp [ha.2])] at hr
          exact hs (congrArg Prod.fst hr).symm
        exact .inl ⟨if_neg hna, by simp [hs]⟩

theorem run_waitLoop {flag : UInt8} {fuel : Nat} {byte : UInt8} {r : Except Stop SDMReturnCode}
    (h : Run (this.waitLoop flag fuel byte) l r) :
    ∃ bytes : List UInt8, flag ∉ bytes ∧
      ((r = .ok .success ∧ this.traffic l = (bytes ++ [flag]).map .read) ∨
        (r ≠ .ok .success ∧ this.traffic l = bytes.map .read)) := by
  induction fuel generalizing byte l with
  | zero =>
    obtain ⟨rfl, rfl⟩ := run_halt.mp h
    exact ⟨[], List.not_mem_nil, .inr ⟨by simp, rfl⟩⟩
  | succ fuel ih =>
    rw [waitLoop, run_bind] at h
    rcases h with ⟨⟨code, v⟩, l₁, l₂, rfl, h₁, h₂⟩ | ⟨e, rfl, he⟩
    · rw [traffic_append]
      dsimp only at h₂
      rcases run_eComReadByte h₁ with ⟨ht, hne⟩ | ⟨v', ht, hr⟩
      · have hcode := hne code v rfl
        rw [if_pos hcode] at h₂
        obtain ⟨rfl, rfl⟩ := run_pure.mp h₂
        exact ⟨[], List.not_mem_nil, .inr ⟨by simpa using hcode, by rw [ht]; rfl⟩⟩
      · cases hr
        rw [if_neg (by simp)] at h₂
        by_cases hv : v = flag
        · subst hv
          rw [if_neg (by simp)] at h₂
          obtain ⟨rfl, rfl⟩ := run_pure.mp h₂
          exact ⟨[], List.not_mem_nil, .inl ⟨rfl, by rw [ht]; rfl⟩⟩
        · rw [if_pos hv] at h₂
          obtain ⟨bytes, hmem, hbytes⟩ := ih h₂
          refine ⟨v :: bytes, by simpa using ⟨Ne.symm hv, hmem⟩, ?_⟩
          rcases hbytes with ⟨hr, hb⟩ | ⟨hr, hb⟩
          · exact .inl ⟨hr, by rw [ht, hb]; rfl⟩
          · exact .inr ⟨hr, by rw [ht, hb]; rfl⟩
    · rcases run_eComReadByte he with ⟨ht, -⟩ | ⟨v', -, hr⟩
      · exact ⟨[], List.not_mem_nil, .inr ⟨by simp, ht⟩⟩
      · cases hr

/-- What a run of `EComWaitFlag` exchanges: bytes read, the flag the last of them if it
succeeds and not among them if it does not. -/
theorem run_eComWaitFlag {flag : UInt8} {fuel : Nat} {r : Except Stop SDMReturnCode}
    (h : Run (this.eComWaitFlag fuel flag) l r) :
    ∃ bytes : List UInt8, flag ∉ bytes ∧
      ((r = .ok .success ∧ this.traffic l = (bytes ++ [flag]).map .read) ∨
        (r ≠ .ok .success ∧ this.traffic l = bytes.map .read)) := run_waitLoop h

end ExternalComPortDriver
end SecureDebug
