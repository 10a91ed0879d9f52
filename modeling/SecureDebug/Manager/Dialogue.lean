import SecureDebug.Driver.Transmit
import SecureDebug.Manager.Session

/-! The target's side of an authentication: what it answers to each request, and which of its
answers the receive routines let through. -/

namespace SecureDebug
open Interaction Program Framing

/-! ### Answers in the traffic -/

def gather (byte : UInt8) : List Observation → List (List UInt8) → List (List UInt8)
  | .read _ :: _, r :: rs => (byte :: r) :: rs
  | _, rs => [byte] :: rs

/-- The bytes read between two writes, in order. -/
def replies : List Observation → List (List UInt8)
  | [] => []
  | .read byte :: t => gather byte t (replies t)
  | _ :: t => replies t

def Begins (t : List Observation) : Prop := ∀ byte, t.head? ≠ some (.read byte)

theorem replies_read_cons {byte byte' : UInt8} {t : List Observation} {r : List UInt8}
    {rs : List (List UInt8)} (h : replies (.read byte' :: t) = r :: rs) :
    replies (.read byte :: .read byte' :: t) = (byte :: r) :: rs := by
  show gather byte (.read byte' :: t) (replies (.read byte' :: t)) = _
  rw [h]
  rfl

theorem replies_read_begins {byte : UInt8} {t : List Observation} (h : Begins t) :
    replies (.read byte :: t) = [byte] :: replies t := by
  cases t with
  | nil => rfl
  | cons o t =>
    cases o with
    | read byte' => exact absurd rfl (h byte')
    | _ => rfl

theorem replies_cons_of_begins {o : Observation} {t : List Observation} (h : Begins (o :: t)) :
    replies (o :: t) = replies t := by
  cases o with
  | read byte => exact absurd rfl (h byte)
  | _ => rfl

theorem exists_replies_read (byte : UInt8) (t : List Observation) :
    ∃ r rs, replies (.read byte :: t) = r :: rs := by
  rw [replies]
  unfold gather
  split
  · exact ⟨_, _, rfl⟩
  · exact ⟨_, _, rfl⟩

theorem replies_append {t₁ t₂ : List Observation} (h : Begins t₂) :
    replies (t₁ ++ t₂) = replies t₁ ++ replies t₂ := by
  induction t₁ with
  | nil => rfl
  | cons o t₁ ih =>
    cases o with
    | read byte =>
      cases t₁ with
      | nil => exact replies_read_begins h
      | cons o t₁ =>
        cases o with
        | read byte' =>
          obtain ⟨r, rs, hr⟩ := exists_replies_read byte' t₁
          rw [hr] at ih
          rw [replies_read_cons hr]
          exact replies_read_cons ih
        | _ => exact congrArg _ ih
    | _ => exact ih

theorem replies_reads {bytes : List UInt8} (h : bytes ≠ []) :
    replies (bytes.map .read) = [bytes] := by
  induction bytes with
  | nil => exact absurd rfl h
  | cons byte bytes ih =>
    cases bytes with
    | nil => rfl
    | cons byte' bytes => exact replies_read_cons (ih (List.cons_ne_nil _ _))

theorem replies_writes {ws t : List Observation} (h : ∀ o ∈ ws, ∀ byte, o ≠ .read byte) :
    replies (ws ++ t) = replies t := by
  induction ws with
  | nil => rfl
  | cons o ws ih =>
    have hbegins : Begins (o :: (ws ++ t)) := fun byte ho =>
      h o List.mem_cons_self byte (Option.some.inj ho)
    rw [List.cons_append, replies_cons_of_begins hbegins]
    exact ih fun o' ho' => h o' (List.mem_cons_of_mem o ho')

/-! ### What an answer says -/

def maxPacket : Nat := bufferSize - sizeofPacket

/-- A well-formed frame: the bytes on which `EComPort_Rx` returns success. -/
structure Framed (bytes : List UInt8) : Prop where
  stop : ∃ pre, bytes = pre ++ [flagEND] ∧ flagEND ∉ pre
  start : flagSTART ∈ bytes
  fits : Receiver.Fits (sdc600 flagSTART) maxPreNullFlags maxPacket {} bytes.dropLast

def reception (bytes : List UInt8) : Receiver UInt8 :=
  ({} : Receiver UInt8).run (sdc600 flagSTART) bytes.dropLast

/-- The message of an answer: the un-escaped bytes between its last `START` and its end flag. -/
def message (bytes : List UInt8) : List UInt8 := (sdc600 flagSTART).message bytes.dropLast

theorem not_framed_nil : ¬Framed [] := by
  rintro ⟨⟨pre, hpre, -⟩, -, -⟩
  simp at hpre

section
variable {bytes buffer : List UInt8}

theorem Framed.exists_pre (h : Framed bytes) :
    ∃ pre, bytes = pre ++ [flagEND] ∧ flagEND ∉ pre ∧ flagSTART ∈ pre := by
  obtain ⟨pre, rfl, hend⟩ := h.stop
  have hmem := h.start
  rw [List.mem_append] at hmem
  exact ⟨pre, rfl, hend, hmem.resolve_right (by decide)⟩

theorem receives_of_framed (room : Room maxPacket buffer) (h : Framed bytes) :
    Receives flagSTART maxPacket (rxStateOf buffer 0 {}) bytes
      ⟨.success, overlay buffer (reception bytes).image, (reception bytes).stored.getD 0⟩ := by
  obtain ⟨pre, rfl, hend, hstart⟩ := h.exists_pre
  have hfits := h.fits
  rw [List.dropLast_concat] at hfits
  have hflag : IsStartFlag flagSTART := .inl rfl
  have hrec := receives_of_fits 0 hflag room hend hfits
  rw [rxResultOf, (ExternalComPortDriver.started_nil_run hflag).mpr hstart, if_pos rfl] at hrec
  rw [reception, List.dropLast_concat]
  exact hrec

theorem framed_of_receives (room : Room maxPacket buffer) {out : RxResult}
    (h : Receives flagSTART maxPacket (rxStateOf buffer 0 {}) bytes out) (hres : out.res = .success) :
    Framed bytes ∧ out.rxBuffer = overlay buffer (reception bytes).image := by
  have hflag : IsStartFlag flagSTART := .inl rfl
  obtain ⟨pre, rfl, hend, hfits, hstarted, rfl⟩ := h.success hflag room Receiver.ok_nil hres
  have hstart := (ExternalComPortDriver.started_nil_run hflag).mp hstarted
  rw [reception, List.dropLast_concat]
  exact ⟨⟨⟨pre, rfl, hend⟩, List.mem_append_left _ hstart, by rwa [List.dropLast_concat]⟩, rfl⟩

/-- From the second byte on the buffer starts with the message, whatever was read or stored
before it. -/
theorem slice_message (h : Framed bytes) {i n : Nat} (hi : i ≠ 0) (hn : i + n ≤ (message bytes).length) :
    ((overlay buffer (reception bytes).image).drop i).take n = ((message bytes).drop i).take n := by
  have lawful := sdc600_lawful (.inl rfl : IsStartFlag flagSTART)
  obtain ⟨pre, rfl, -, hstart⟩ := h.exists_pre
  obtain ⟨e, hcur⟩ := Receiver.exists_cur_run {} lawful.start_ne_null lawful.start_ne_esc
    (show (sdc600 flagSTART).start ∈ pre from hstart)
  have htail : ((reception (pre ++ [flagEND])).cur).tail = (message (pre ++ [flagEND])).tail := by
    rw [reception, message, List.dropLast_concat, hcur, Alphabet.message, Alphabet.tail_unstuff]
  have hlen : (reception (pre ++ [flagEND])).cur.length = (message (pre ++ [flagEND])).length := by
    rw [reception, message, List.dropLast_concat, hcur, Alphabet.message, Alphabet.length_unstuff,
      Alphabet.length_unstuff]
  obtain ⟨i, rfl⟩ := Nat.exists_eq_succ_of_ne_zero hi
  rw [Receiver.image, ← overlay_assoc, slice_overlay (hlen ▸ hn), ← List.drop_tail, htail,
    List.drop_tail]

/-- The status that the code sees after an `AUTH_RESPONSE`: where the answer is too short its
bytes are still those of the command. -/
def answerStatus (psa : PsaAdac) (bytes : List UInt8) : Nat :=
  leNat (overlay (leBytes 2 psa.adacAuthResponseCmd) (((reception bytes).image.drop 2).take 2))

structure Accepted (psa : PsaAdac) (bytes : List UInt8) : Prop where
  framed : Framed bytes
  status : answerStatus psa bytes = psa.adacSuccess ∨ answerStatus psa bytes = psa.adacNeedMoreData

theorem packetStatus_overlay (psa : PsaAdac) {request : List UInt8}
    (h : (request.drop 2).take 2 = leBytes 2 psa.adacAuthResponseCmd) (bytes : List UInt8) :
    packetStatus (overlay request (reception bytes).image) = answerStatus psa bytes := by
  rw [packetStatus, overlay_drop, overlay_take, h, answerStatus]

theorem answerStatus_eq (psa : PsaAdac) (h : Framed bytes) (hlen : 4 ≤ (message bytes).length) :
    answerStatus psa bytes = packetStatus (message bytes) := by
  have hrequest : ((0 :: 0 :: leBytes 2 psa.adacAuthResponseCmd).drop 2).take 2 =
      leBytes 2 psa.adacAuthResponseCmd := rfl
  rw [← packetStatus_overlay psa hrequest, packetStatus, slice_message h (by decide) hlen,
    packetStatus]

theorem packetDataCount_overlay (h : Framed bytes) (hlen : 8 ≤ (message bytes).length) :
    packetDataCount (overlay buffer (reception bytes).image) = packetDataCount (message bytes) := by
  rw [packetDataCount, slice_message h (by decide) hlen, packetDataCount]

end

/-! ### What a run shows -/

namespace ExternalComPortDriver
variable {driver : ExternalComPortDriver}

theorem run_eComPortRx {fuel : Nat} {rxBuffer : List UInt8} {l : Trace} {r : Except Stop RxResult}
    (hinit : driver.mIsComPortInited = true) (hsize : rxBuffer.length = bufferSize)
    (h : Run (driver.eComPortRx fuel rxBuffer maxPacket 0) l r) :
    ∃ bytes : List UInt8, driver.traffic l = bytes.map .read ∧
      (Framed bytes → r = .ok ⟨.success, overlay rxBuffer (reception bytes).image,
        (reception bytes).stored.getD 0⟩) ∧
      ∀ out, r = .ok out → out.res = .success → Framed bytes := by
  rw [eComPortRx, hinit] at h
  obtain ⟨bytes, ht, hbytes⟩ := run_rxLoop h
  have room : Room maxPacket rxBuffer := ⟨by decide, by rw [hsize]; decide⟩
  refine ⟨bytes, ht, ?_⟩
  rcases hbytes with ⟨out, rfl, hrec⟩ | ⟨hne, hnot⟩
  · refine ⟨fun hframed => ?_, fun out' hout hres => ?_⟩
    · have hrec' := receives_of_framed room hframed
      rw [(hrec.unique hrec' (List.prefix_refl _) (List.prefix_refl _)).2]
    · obtain rfl := Except.ok.inj hout
      exact (framed_of_receives room hrec hres).1
  · exact ⟨fun hframed => absurd (receives_of_framed room hframed) (hnot _),
      fun out hout hres => absurd hres (hne out hout)⟩

theorem eComPortTx_packet {packet : List UInt8} {n : Nat} (hinit : driver.mIsComPortInited = true)
    (hsize : packet.length ≤ bufferSize) : driver.eComPortTx packet n true =
      driver.registerAccess (((sdc600 flagSTART).frame packet).map (driver.writeAccess true)) >>=
        fun a => pure (writeResult ((sdc600 flagSTART).frame packet).length a,
          ((sdc600 flagSTART).frame packet).length) := by
  have hlen : ((sdc600 flagSTART).frame packet).length ≤ 65535 := by
    have hcount : packet.countP (sdc600 flagSTART).flagged ≤ packet.length := List.countP_le_length
    have hmax : bufferSize = 4096 := rfl
    rw [Alphabet.length_frame]
    omega
  have hne : (sdc600 flagSTART).frame packet ≠ [] := List.cons_ne_nil _ _
  rw [eComPortTx_eq hinit hlen, eComSendBlock_true, driver.eComTxRaw_eq true hne, bind_assoc]
  rfl

theorem run_eComPortTx {txBuffer : List UInt8} {n : Nat} {l : Trace}
    {r : Except Stop (SDMReturnCode × Nat)} (hinit : driver.mIsComPortInited = true)
    (hsize : txBuffer.length ≤ bufferSize) (h : Run (driver.eComPortTx txBuffer n true) l r) :
    (∀ out, r = .ok out → driver.traffic l ≠ []) ∧ ∀ o ∈ driver.traffic l, ∀ byte, o ≠ .read byte := by
  have hne : (sdc600 flagSTART).frame txBuffer ≠ [] := List.cons_ne_nil _ _
  rw [eComPortTx_packet hinit hsize] at h
  cases hcb : driver.mRegisterAccessCallback with
  | false =>
    obtain ⟨rfl, rfl⟩ := (run_access_bind_of_null hcb).mp h
    exact ⟨(fun _ hout => nomatch hout), fun _ ho => nomatch ho⟩
  | true =>
    obtain ⟨a, l', rfl, h'⟩ := (run_access_bind hcb).mp h
    obtain ⟨rfl, -⟩ := run_pure.mp h'
    have ht := driver.traffic_writeEvent true ((sdc600 flagSTART).frame txBuffer) a
    rw [writeEvent] at ht
    rw [ht]
    refine ⟨fun _ _ hnil => hne ?_, fun o ho byte => ?_⟩
    · rw [List.append_eq_nil_iff, List.map_eq_nil_iff, List.map_eq_nil_iff] at hnil
      rw [← List.take_append_drop a.accessesCompleted ((sdc600 flagSTART).frame txBuffer), hnil.1,
        hnil.2, List.append_nil]
    · rcases List.mem_append.mp ho with ho | ho
      · obtain ⟨b, -, rfl⟩ := List.mem_map.mp ho
        simp
      · obtain ⟨b, -, rfl⟩ := List.mem_map.mp ho
        simp

end ExternalComPortDriver

def Silent {β : Type} (p : Sdm β) : Prop :=
  ∀ (driver : ExternalComPortDriver) l r, Run p l r → driver.traffic l = []

section
variable {β γ : Type} {p : Sdm β} {f : β → Sdm γ}

theorem silent_pure {b : β} : Silent (pure b : Sdm β) := by
  intro driver l r h
  obtain ⟨rfl, -⟩ := run_pure.mp h
  rfl

theorem silent_halt {e : Stop} : Silent (halt e : Sdm β) := by
  intro driver l r h
  obtain ⟨rfl, -⟩ := run_halt.mp h
  rfl

theorem silent_lift {x : Except Stop β} : Silent (lift x) := by
  intro driver l r h
  rw [(run_lift.mp h).1]
  rfl

theorem silent_callHost {c : HostCall}
    (h : ∀ (driver : ExternalComPortDriver) a, driver.traffic [⟨c, a⟩] = []) :
    Silent (callHost c) := by
  intro driver l r hrun
  obtain ⟨a, rfl, -⟩ := run_perform.mp hrun
  exact h driver a

theorem Silent.bind (hp : Silent p) (hf : ∀ b, Silent (f b)) : Silent (p >>= f) := by
  intro driver l r h
  rcases run_bind.mp h with ⟨b, l₁, l₂, rfl, h₁, h₂⟩ | ⟨e, -, he⟩
  · rw [ExternalComPortDriver.traffic_append, hp driver _ _ h₁, hf b driver _ _ h₂, List.append_nil]
  · exact hp driver _ _ he

theorem silent_ite {c : Prop} [Decidable c] {q : Sdm β} (hp : Silent p) (hq : Silent q) :
    Silent (if c then p else q) := by
  split_ifs
  · exact hp
  · exact hq

theorem silent_deref {a : Option β} : Silent (deref a) := by
  cases a with
  | none => exact silent_halt
  | some a => exact silent_pure

end

namespace SecureDebugManagerImpl
variable {this this' : SecureDebugManagerImpl} {driver : ExternalComPortDriver} {psa : PsaAdac}
  {fuel : Nat} {l : Trace} {res : SDMReturnCode}

theorem silent_updateProgress (progressMessage : String) (percentComplete : UInt8) :
    Silent (this.updateProgress progressMessage percentComplete) :=
  silent_deref.bind fun _ => silent_ite (silent_callHost fun _ _ => rfl) silent_pure

theorem silent_loadCredentials : Silent this.loadCredentials := by
  refine silent_deref.bind fun _ => silent_ite silent_pure ?_
  refine (silent_callHost fun _ _ => rfl).bind fun _ => silent_ite silent_pure ?_
  refine (silent_callHost fun _ _ => rfl).bind fun _ => silent_ite silent_pure ?_
  refine (silent_callHost fun _ _ => rfl).bind fun _ => silent_ite silent_pure silent_pure

/-! ### One exchange -/

theorem run_requestPacketSend {packet : List UInt8} {r : Except Stop SDMReturnCode}
    (ho : this.IsOpen driver) (hsize : packet.length ≤ bufferSize)
    (h : Run (this.requestPacketSend packet) l r) :
    (∀ res, r = .ok res → driver.traffic l ≠ []) ∧ ∀ o ∈ driver.traffic l, ∀ byte, o ≠ .read byte := by
  unfold requestPacketSend at h
  rw [ho.attached, deref_some, pure_bind] at h
  rcases run_bind.mp h with ⟨txBuffer, l₁, l₂, rfl, h₁, h₂⟩ | ⟨e, rfl, he⟩
  · obtain ⟨rfl, hpeek⟩ := run_lift.mp h₁
    have htx : txBuffer.length ≤ bufferSize := (length_of_peek hpeek.symm).trans hsize
    rw [List.nil_append]
    rcases run_bind.mp h₂ with ⟨out, l₃, l₄, rfl, h₃, h₄⟩ | ⟨e, rfl, he⟩
    · obtain ⟨rfl, -⟩ := run_pure.mp h₄
      obtain ⟨hne, hws⟩ := ExternalComPortDriver.run_eComPortTx ho.inited htx h₃
      rw [List.append_nil]
      exact ⟨fun _ _ => hne out rfl, hws⟩
    · exact ⟨(fun _ hres => nomatch hres), (ExternalComPortDriver.run_eComPortTx ho.inited htx he).2⟩
  · obtain ⟨rfl, -⟩ := run_lift.mp he
    exact ⟨(fun _ hres => nomatch hres), fun _ ho => nomatch ho⟩

theorem run_responsePacketReceive {packet : List UInt8}
    {r : Except Stop (SDMReturnCode × List UInt8)} (ho : this.IsOpen driver)
    (hsize : packet.length = bufferSize)
    (h : Run (this.responsePacketReceive fuel packet maxPacket) l r) :
    ∃ bytes : List UInt8, driver.traffic l = bytes.map .read ∧
      (Framed bytes → r = .ok (.success, overlay packet (reception bytes).image)) ∧
      ∀ response, r = .ok (.success, response) → Framed bytes := by
  unfold responsePacketReceive at h
  rw [if_neg (by decide), ho.attached, deref_some, pure_bind] at h
  rcases run_bind.mp h with ⟨out, l₁, l₂, rfl, h₁, h₂⟩ | ⟨e, rfl, he⟩
  · obtain ⟨rfl, rfl⟩ := run_pure.mp h₂
    obtain ⟨bytes, ht, hframed, hsuccess⟩ := ExternalComPortDriver.run_eComPortRx ho.inited hsize h₁
    rw [List.append_nil]
    refine ⟨bytes, ht, fun hbytes => ?_, fun response hresponse => ?_⟩
    · obtain rfl := Except.ok.inj (hframed hbytes)
      rfl
    · exact hsuccess out rfl (Prod.mk.inj (Except.ok.inj hresponse)).1
  · obtain ⟨bytes, ht, hframed, -⟩ := ExternalComPortDriver.run_eComPortRx ho.inited hsize he
    refine ⟨bytes, ht, fun hbytes => ?_, fun response hresponse => nomatch hresponse⟩
    cases hframed hbytes

theorem run_responsePacketReceive_ok {packet response : List UInt8} (ho : this.IsOpen driver)
    (hsize : packet.length = bufferSize)
    (h : Run (this.responsePacketReceive fuel packet maxPacket) l (.ok (res, response))) :
    ∃ bytes : List UInt8, driver.traffic l = bytes.map .read ∧ (res = .success ↔ Framed bytes) ∧
      (res = .success → response = overlay packet (reception bytes).image) := by
  obtain ⟨bytes, ht, hframed, hsuccess⟩ := run_responsePacketReceive ho hsize h
  have hiff : res = .success ↔ Framed bytes := by
    refine ⟨fun hres => hsuccess response (by rw [hres]), fun hbytes => ?_⟩
    exact (Prod.mk.inj (Except.ok.inj (hframed hbytes))).1
  refine ⟨bytes, ht, hiff, fun hres => ?_⟩
  exact (Prod.mk.inj (Except.ok.inj (hframed (hiff.mp hres)))).2

theorem run_sendAuthResponseCmdRequest {cert : List UInt8} (ho : this.IsOpen driver)
    (h : Run (this.sendAuthResponseCmdRequest psa cert) l (.ok (res, this'))) :
    driver.traffic l ≠ [] ∧ (∀ o ∈ driver.traffic l, ∀ byte, o ≠ .read byte) ∧
      this'.IsOpen driver ∧ (this'.mMsgBuffer.drop 2).take 2 = leBytes 2 psa.adacAuthResponseCmd := by
  have ho' := (returns_sendAuthResponseCmdRequest _ _ h).isOpen_of ho
  unfold sendAuthResponseCmdRequest at h
  obtain ⟨b₁, l₁, l₂, rfl, h₁, h₂⟩ := run_bind_ok.mp h
  obtain ⟨b₂, l₃, l₄, rfl, h₃, h₄⟩ := run_bind_ok.mp h₂
  obtain ⟨b₃, l₅, l₆, rfl, h₅, h₆⟩ := run_bind_ok.mp h₄
  obtain ⟨rfl, hp₁⟩ := run_lift.mp h₁
  obtain ⟨rfl, hp₂⟩ := run_lift.mp h₃
  obtain ⟨rfl, hp₃⟩ := run_lift.mp h₅
  obtain ⟨res', l₇, l₈, rfl, h₇, h₈⟩ := run_bind_ok.mp h₆
  obtain ⟨rfl, rfl, rfl⟩ := run_pure_pair.mp h₈
  simp only [List.nil_append, List.append_nil]
  have hsend := run_requestPacketSend ho' (Nat.le_of_eq ho'.size) h₇
  refine ⟨hsend.1 _ rfl, hsend.2, ho', ?_⟩
  rw [slice_of_poke_of_le hp₃.symm (by decide), slice_of_poke_of_le hp₂.symm (by decide)]
  exact slice_of_poke hp₁.symm

theorem run_receiveAuthResponseCmdResponse (ho : this.IsOpen driver)
    (hcmd : (this.mMsgBuffer.drop 2).take 2 = leBytes 2 psa.adacAuthResponseCmd)
    (h : Run (this.receiveAuthResponseCmdResponse psa fuel) l (.ok (res, this'))) :
    ∃ bytes : List UInt8, driver.traffic l = bytes.map .read ∧
      (res = .success ↔ Accepted psa bytes) := by
  unfold receiveAuthResponseCmdResponse at h
  obtain ⟨⟨code, response⟩, l₁, l₂, rfl, h₁, h₂⟩ := run_bind_ok.mp h
  rw [ho.size] at h₁
  obtain ⟨bytes, ht, hframed, hresponse⟩ := run_responsePacketReceive_ok ho ho.size h₁
  have hstatus (hcode : code = .success) : packetStatus response = answerStatus psa bytes := by
    rw [hresponse hcode, packetStatus_overlay psa hcmd]
  obtain ⟨rfl, hres⟩ : l₂ = [] ∧ (res = .success ↔ code = .success ∧
      (packetStatus response = psa.adacSuccess ∨ packetStatus response = psa.adacNeedMoreData)) := by
    dsimp only at h₂
    split_ifs at h₂ with hcode hrefused
    · obtain ⟨rfl, rfl, -⟩ := run_pure_pair.mp h₂
      exact ⟨rfl, by simp [hcode]⟩
    · obtain ⟨rfl, rfl, -⟩ := run_pure_pair.mp h₂
      exact ⟨rfl, by simp [hrefused]⟩
    · obtain ⟨rfl, rfl, -⟩ := run_pure_pair.mp h₂
      have hok : packetStatus response = psa.adacSuccess ∨
          packetStatus response = psa.adacNeedMoreData := by
        by_contra hne
        exact hrefused (not_or.mp hne)
      exact ⟨rfl, by simp [not_not.mp hcode, hok]⟩
  rw [List.append_nil]
  refine ⟨bytes, ht, hres.trans ⟨fun ⟨hcode, hok⟩ => ?_, fun haccepted => ?_⟩⟩
  · rw [hstatus hcode] at hok
    exact ⟨hframed.mp hcode, hok⟩
  · have hcode := hframed.mpr haccepted.framed
    rw [hstatus hcode]
    exact ⟨hcode, haccepted.status⟩

end SecureDebugManagerImpl

/-! ### Settled exchanges -/

structure Settled (psa : PsaAdac) (t : List Observation) : Prop where
  last : ∃ byte, t.getLast? = some (.read byte)
  answer : ∃ bytes, (replies t).getLast? = some bytes ∧ Accepted psa bytes

/-- What a part of the response phase shows: it returns success just if the last answer
settles it, and then every answer was let through. -/
structure Responds (psa : PsaAdac) (t : List Observation) (res : SDMReturnCode) : Prop where
  begins : Begins t
  settled : t ≠ [] → (res = .success ↔ Settled psa t)
  quiet : t = [] → res = .success
  accepted : res = .success → ∀ bytes ∈ replies t, Accepted psa bytes

section
variable {psa : PsaAdac} {t t₁ t₂ : List Observation} {res res' : SDMReturnCode}

theorem replies_ne_nil {byte : UInt8} (h : .read byte ∈ t) : replies t ≠ [] := by
  induction t with
  | nil => cases h
  | cons o t ih =>
    cases o with
    | read byte' =>
      obtain ⟨r, rs, hr⟩ := exists_replies_read byte' t
      rw [hr]
      exact List.cons_ne_nil r rs
    | _ =>
      rcases List.mem_cons.mp h with h | h
      · cases h
      · exact ih h

theorem settled_append (h : Begins t₂) (hne : t₂ ≠ []) :
    Settled psa (t₁ ++ t₂) ↔ Settled psa t₂ := by
  have hlast : (t₁ ++ t₂).getLast? = t₂.getLast? := List.getLast?_append_of_ne_nil t₁ hne
  have hreplies (hread : ∃ byte, t₂.getLast? = some (.read byte)) :
      (replies (t₁ ++ t₂)).getLast? = (replies t₂).getLast? := by
    obtain ⟨byte, hbyte⟩ := hread
    rw [replies_append h]
    exact List.getLast?_append_of_ne_nil _ (replies_ne_nil (List.mem_of_getLast? hbyte))
  constructor
  · rintro ⟨hread, hanswer⟩
    rw [hlast] at hread
    rw [hreplies hread] at hanswer
    exact ⟨hread, hanswer⟩
  · rintro ⟨hread, hanswer⟩
    refine ⟨hlast ▸ hread, ?_⟩
    rw [hreplies hread]
    exact hanswer

theorem begins_append (h₁ : Begins t₁) (h₂ : Begins t₂) : Begins (t₁ ++ t₂) := by
  cases t₁ with
  | nil => exact h₂
  | cons o t₁ => exact h₁

theorem Responds.append (h₁ : Responds psa t₁ .success) (h₂ : Responds psa t₂ res) :
    Responds psa (t₁ ++ t₂) res where
  begins := begins_append h₁.begins h₂.begins
  settled hne := by
    by_cases hnil : t₂ = []
    · subst hnil
      rw [List.append_nil] at hne ⊢
      exact iff_of_true (h₂.quiet rfl) ((h₁.settled hne).mp rfl)
    · rw [settled_append h₂.begins hnil]
      exact h₂.settled hnil
  quiet hnil := h₂.quiet (List.append_eq_nil_iff.mp hnil).2
  accepted hres bytes hbytes := by
    rw [replies_append h₂.begins, List.mem_append] at hbytes
    exact hbytes.elim (h₁.accepted rfl bytes) (h₂.accepted hres bytes)

theorem Responds.fail (h : Responds psa t res) (hres : res ≠ .success) (hres' : res' ≠ .success) :
    Responds psa t res' where
  begins := h.begins
  settled hne := iff_of_false hres' fun hs => hres ((h.settled hne).mpr hs)
  quiet hnil := absurd (h.quiet hnil) hres
  accepted hres := absurd hres hres'

theorem responds_nil : Responds psa [] .success where
  begins _ h := nomatch h
  settled h := absurd rfl h
  quiet _ := rfl
  accepted _ _ h := nomatch h

theorem not_accepted_nil : ¬Accepted psa [] := fun h => not_framed_nil h.framed

theorem responds_exchange {ws : List Observation} {bytes : List UInt8} (hne : ws ≠ [])
    (hws : ∀ o ∈ ws, ∀ byte, o ≠ .read byte) (h : res = .success ↔ Accepted psa bytes) :
    Responds psa (ws ++ bytes.map .read) res := by
  have hnil : ws ++ bytes.map .read ≠ [] := fun hnil => hne (List.append_eq_nil_iff.mp hnil).1
  obtain ⟨o, ws', rfl⟩ := List.exists_cons_of_ne_nil hne
  have hbegins : Begins (o :: ws' ++ bytes.map .read) := fun byte ho =>
    hws o List.mem_cons_self byte (Option.some.inj ho)
  have hreplies := replies_writes (t := bytes.map .read) hws
  cases bytes with
  | nil =>
    have hlast : ¬Settled psa (o :: ws' ++ ([] : List UInt8).map .read) := by
      rintro ⟨⟨byte, hbyte⟩, -⟩
      rw [List.map_nil, List.append_nil] at hbyte
      exact hws _ (List.mem_of_getLast? hbyte) byte rfl
    refine ⟨hbegins, fun _ => iff_of_false (mt h.mp not_accepted_nil) hlast,
      fun hn => absurd hn hnil, fun hres => absurd (h.mp hres) not_accepted_nil⟩
  | cons byte bytes =>
    have hone : replies (o :: ws' ++ (byte :: bytes).map .read) = [byte :: bytes] :=
      hreplies.trans (replies_reads (List.cons_ne_nil _ _))
    have hlast : ∃ b, (o :: ws' ++ (byte :: bytes).map Observation.read).getLast? =
        some (.read b) := by
      obtain ⟨pre, b, hb⟩ := (List.eq_nil_or_concat (byte :: bytes)).resolve_left
        (List.cons_ne_nil _ _)
      use b
      rw [hb, List.concat_eq_append, List.map_append, ← List.append_assoc]
      exact List.getLast?_concat
    refine ⟨hbegins, fun _ => h.trans ⟨fun ha => ⟨hlast, _, by rw [hone]; rfl, ha⟩, ?_⟩,
      fun hn => absurd hn hnil, ?_⟩
    · rintro ⟨-, r, hr, ha⟩
      rw [hone] at hr
      obtain rfl := Option.some.inj hr
      exact ha
    · intro hres r hr
      rw [hone] at hr
      obtain rfl := List.mem_singleton.mp hr
      exact h.mp hres

end
end SecureDebug
