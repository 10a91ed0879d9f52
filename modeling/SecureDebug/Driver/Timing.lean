import SecureDebug.Driver.Counters
import SecureDebug.Driver.Course

/-! Two devices that do the same at each stage of an operation, at whatever pace, cannot be told apart
by what it returns or sends. -/

namespace SecureDebug
open Interaction Program Framing

namespace ExternalComPortDriver
variable {σ : Type} {this : ExternalComPortDriver} {m : Machine Host σ} {s t u : σ}
  {level : Status → UInt8} {a : AccessResult} {flag byte : UInt8}

/-! ### The identification -/

theorem DeliversAll.read {stream : Stream' UInt8} (h : this.DeliversAll m s stream) :
    ∃ a t, m.answer (.registerAccess [this.readAccess]) s = (a, t) ∧
      (a.result = .success ∧ a.accessesCompleted = 1) ∧ dataByte a = stream.head ∧
      this.DeliversAll m t stream.tail := by
  -- the prefixes are delivered by different runs, but these all begin with the same answer
  have hread (n : Nat) : ∃ u, (m.answer (.registerAccess [this.readAccess]) s).1.result = .success ∧
      (m.answer (.registerAccess [this.readAccess]) s).1.accessesCompleted = 1 ∧
      dataByte (m.answer (.registerAccess [this.readAccess]) s).1 = stream.head ∧
      this.Delivers m (m.answer (.registerAccess [this.readAccess]) s).2 (stream.tail.take n) u := by
    obtain ⟨u, hcb, as, has, hbytes, hplays⟩ := h (n + 1)
    rw [Stream'.take_succ] at hbytes
    obtain ⟨a, as, rfl, hhead, hrest⟩ := List.map_eq_cons_iff.mp hbytes
    rw [List.map_cons, readEvent] at hplays
    obtain ⟨rfl, hrests⟩ := Machine.plays_cons.mp hplays
    obtain ⟨⟨hres, hdone⟩, hclean⟩ := List.forall_mem_cons.mp has
    exact ⟨u, hres, hdone, hhead, hcb, as, hclean, hrest, hrests⟩
  obtain ⟨-, hres, hdone, hhead, -⟩ := hread 0
  refine ⟨_, _, rfl, ⟨hres, hdone⟩, hhead, fun n => ?_⟩
  obtain ⟨u, -, -, -, hu⟩ := hread n
  exact ⟨u, hu⟩

theorem exec_rxLoop_turn {startFlag : UInt8} {rxBufferLength fuel : Nat} {rx : RxState}
    {stream : Stream' UInt8} (next : Sdm RxResult) (hcb : this.mRegisterAccessCallback = true)
    (hd : this.DeliversAll m s stream)
    (hnext : (lift (rxStep startFlag rxBufferLength rx stream.head) >>= fun
      | .done out => pure out
      | .more rx => this.rxLoop startFlag rxBufferLength fuel rx) = next) :
    ∃ a t, this.DeliversAll m t stream.tail ∧ this.written [this.readEvent a] = [] ∧
      m.exec (this.rxLoop startFlag rxBufferLength (fuel + 1) rx) s =
        ((m.exec next t).1, this.readEvent a :: (m.exec next t).2.1, (m.exec next t).2.2) := by
  obtain ⟨a, t, ha, hclean, hhead, htail⟩ := hd.read
  refine ⟨a, t, htail, this.written_readEvent a, ?_⟩
  rw [rxLoop_eq, exec_access_bind hcb ha, readResult_of_clean hclean, if_neg (not_not.mpr rfl), hhead,
    ← hnext]
  rfl

theorem exec_rxLoop_stream (hcb : this.mRegisterAccessCallback = true) (startFlag : UInt8)
    (rxBufferLength fuel : Nat) (rx : RxState) (stream : Stream' UInt8) :
    ∃ r, ∀ (σ : Type) (m : Machine Host σ) (s : σ), this.DeliversAll m s stream →
      ∃ l t, m.exec (this.rxLoop startFlag rxBufferLength fuel rx) s = (r, l, t) ∧
        this.written l = [] := by
  induction fuel generalizing rx stream with
  | zero => exact ⟨.error .outOfFuel, fun _ _ s _ => ⟨[], s, rfl, rfl⟩⟩
  | succ fuel ih =>
    cases hstep : rxStep startFlag rxBufferLength rx stream.head with
    | error e =>
      refine ⟨.error e, fun σ m s hd => ?_⟩
      obtain ⟨a, t, -, hws, hexec⟩ := exec_rxLoop_turn (.halt e) hcb hd (by rw [hstep]; rfl)
      exact ⟨_, t, hexec, hws⟩
    | ok step =>
      cases step with
      | done out =>
        refine ⟨.ok out, fun σ m s hd => ?_⟩
        obtain ⟨a, t, -, hws, hexec⟩ := exec_rxLoop_turn (.ret out) hcb hd (by rw [hstep]; rfl)
        exact ⟨_, t, hexec, hws⟩
      | more rx' =>
        obtain ⟨r, hr⟩ := ih rx' stream.tail
        refine ⟨r, fun σ m s hd => ?_⟩
        obtain ⟨a, t, htail, hws, hexec⟩ :=
          exec_rxLoop_turn (this.rxLoop startFlag rxBufferLength fuel rx') hcb hd
            (by rw [hstep]; rfl)
        obtain ⟨l, u, hrest, hws'⟩ := hr σ m t htail
        rw [hrest] at hexec
        refine ⟨this.readEvent a :: l, u, hexec, ?_⟩
        rw [← List.singleton_append, written_append, hws, hws']
        rfl

section
variable {remoteReset : ECPDRemoteResetType} {idResponseBuffer : List UInt8} {idBufferLength : Nat}

def initResult (this : ExternalComPortDriver) (rx : RxResult) : InitResult :=
  if rx.res ≠ .success then ⟨rx.res, rx.rxBuffer, this⟩
  else if rx.actualLength = 0 then ⟨.transferError, rx.rxBuffer, this⟩
  else ⟨.success, rx.rxBuffer, { this with mIsComPortInited := true }⟩

theorem eComPortInit_eq_result (fuel : Nat) :
    this.eComPortInit fuel remoteReset idResponseBuffer idBufferLength =
      psaAdacAssert (fun res => ⟨res, idResponseBuffer, this⟩) (this.initHandshake fuel remoteReset)
        (this.eComPortRxInt fuel flagIDA idResponseBuffer idBufferLength 0 >>= fun rx =>
          pure (this.initResult rx)) := by
  rw [eComPortInit_eq_handshake]
  congr 2
  funext rx
  rw [initResult]
  split_ifs <;> rfl

theorem fueled_eComPortInit (hcb : this.mRegisterAccessCallback = true) :
    Fueled .outOfFuel fun fuel =>
      this.eComPortInit fuel remoteReset idResponseBuffer idBufferLength := by
  have hrx : Fueled .outOfFuel fun fuel =>
      this.eComPortRxInt fuel flagIDA idResponseBuffer idBufferLength 0 := fueled_rxLoop _ _ _
  simp only [eComPortInit_eq_result]
  exact (paced_initHandshake hcb remoteReset).fueled.bind fun _ =>
    fueled_ite (hrx.bind fun _ => fueled_const _) (fueled_const _)

variable (idResponseBuffer idBufferLength) in
theorem exec_identify (hcb : this.mRegisterAccessCallback = true) (bs : List Beat) :
    ∃ f : Nat → Except Stop InitResult, ∀ (σ : Type) (m : Machine Host σ) (s : σ),
      this.Course m [.identify] s bs → ∀ fuel, ∃ l t,
        m.exec (this.eComPortRxInt fuel flagIDA idResponseBuffer idBufferLength 0 >>= fun rx =>
          pure (this.initResult rx)) s = (f fuel, l, t) ∧ this.written l = [] := by
  by_cases hbs : ∃ stream bs', bs = .delivers stream :: bs'
  · obtain ⟨stream, bs', rfl⟩ := hbs
    choose f hf using fun fuel => exec_rxLoop_stream hcb flagIDA idBufferLength fuel
      { preNullFlags := 0, bufferIdx := 0, isStartRecv := false, isEscRecv := false,
        rxBuffer := idResponseBuffer, actualLength := 0 } stream
    refine ⟨fun fuel => (f fuel).map this.initResult, fun σ m s hcourse fuel => ?_⟩
    have hd : this.DeliversAll m s stream := by
      cases hcourse with
      | go hshows =>
        cases hshows with
        | delivers hd => exact hd
      | stop hshows =>
        cases hshows with
        | delivers hd => exact hd
    obtain ⟨l, t, hexec, hws⟩ := hf fuel σ m s hd
    refine ⟨l, t, ?_, hws⟩
    rw [Machine.exec_bind_pure, eComPortRxInt, hexec]
  · -- at this stage a device shows nothing but a stream
    refine ⟨fun _ => .error .outOfFuel, fun σ m s hcourse => absurd ?_ hbs⟩
    cases hcourse with
    | go hshows =>
      cases hshows with
      | delivers => exact ⟨_, _, rfl⟩
    | stop hshows =>
      cases hshows with
      | delivers => exact ⟨_, _, rfl⟩

variable (remoteReset idResponseBuffer idBufferLength) in
/-- With enough turns what the device shows determines how `EComPort_Init` ends. -/
theorem exec_eComPortInit_course (hcb : this.mRegisterAccessCallback = true) (bs : List Beat) :
    ∃ (f : Nat → Except Stop InitResult) (ws : List UInt8),
      ∀ (σ : Type) (m : Machine Host σ) (s : σ), this.Course m (handshake remoteReset) s bs →
        ∃ n, ∀ k, n ≤ k → ∃ l t,
          m.exec (this.eComPortInit k remoteReset idResponseBuffer idBufferLength) s = (f k, l, t) ∧
            this.written l = ws := by
  have hstages : handshake remoteReset = link remoteReset ++ (remoteReset.step ++
      [.await flagLPH2RA, .send flagIDR]) ++ [.identify] := by
    rw [handshake, List.append_assoc, List.append_assoc]
    rfl
  obtain ⟨code, ws, hhand⟩ := determined_initHandshake remoteReset hcb [.identify] bs
  obtain ⟨f, hf⟩ := exec_identify idResponseBuffer idBufferLength hcb
    (bs.drop (link remoteReset ++
      (remoteReset.step ++ [Stage.await flagLPH2RA, .send flagIDR])).length)
  rw [hstages]
  by_cases hcode : code = .success
  · refine ⟨f, ws, fun σ m s hcourse => ?_⟩
    obtain ⟨n, l, t, hexec, hws, hrest⟩ := hhand σ m s hcourse
    refine ⟨n, fun k hk => ?_⟩
    obtain ⟨l', u, hexec', hws'⟩ := hf σ m t (hrest hcode) k
    have hk := hexec k hk
    rw [hcode] at hk
    refine ⟨l ++ l', u, ?_, by rw [written_append, hws, hws', List.append_nil]⟩
    rw [eComPortInit_eq_result, exec_assert _ hk, hexec']
  · refine ⟨fun _ => .ok ⟨code, idResponseBuffer, this⟩, ws, fun σ m s hcourse => ?_⟩
    obtain ⟨n, l, t, hexec, hws, -⟩ := hhand σ m s hcourse
    refine ⟨n, fun k hk => ⟨l, t, ?_, hws⟩⟩
    rw [eComPortInit_eq_result, exec_assert_bail _ (hexec k hk) hcode]

end

/-- The two devices show the same at each stage, so that they differ at most in how long they keep
the driver waiting and in the bytes ahead of an awaited flag. -/
def Alike {σ₁ σ₂ : Type} (this : ExternalComPortDriver) (m₁ : Machine Host σ₁) (m₂ : Machine Host σ₂)
    (ss : List Stage) (s₁ : σ₁) (s₂ : σ₂) : Prop :=
  ∃ bs, this.Course m₁ ss s₁ bs ∧ this.Course m₂ ss s₂ bs

section
variable {σ₁ σ₂ : Type} {m₁ : Machine Host σ₁} {m₂ : Machine Host σ₂} {s₁ : σ₁} {s₂ : σ₂}
  (hcb : this.mRegisterAccessCallback = true)
include hcb

theorem exec_eComPortInit_alike {remoteReset : ECPDRemoteResetType} {idResponseBuffer : List UInt8}
    {idBufferLength : Nat} (halike : this.Alike m₁ m₂ (handshake remoteReset) s₁ s₂) :
    (Completes m₁ (fun fuel =>
        this.eComPortInit fuel remoteReset idResponseBuffer idBufferLength) s₁ ↔
      Completes m₂ (fun fuel =>
        this.eComPortInit fuel remoteReset idResponseBuffer idBufferLength) s₂) ∧
    ∀ n₁ n₂ out₁ out₂ l₁ l₂ t₁ t₂,
      m₁.exec (this.eComPortInit n₁ remoteReset idResponseBuffer idBufferLength) s₁ =
          (.ok out₁, l₁, t₁) →
      m₂.exec (this.eComPortInit n₂ remoteReset idResponseBuffer idBufferLength) s₂ =
          (.ok out₂, l₂, t₂) →
        out₁ = out₂ ∧ this.written l₁ = this.written l₂ := by
  obtain ⟨bs, hcourse₁, hcourse₂⟩ := halike
  obtain ⟨f, ws, hf⟩ :=
    exec_eComPortInit_course remoteReset idResponseBuffer idBufferLength hcb bs
  obtain ⟨N₁, hN₁⟩ := hf _ m₁ s₁ hcourse₁
  obtain ⟨N₂, hN₂⟩ := hf _ m₂ s₂ hcourse₂
  have hfueled : Fueled .outOfFuel fun fuel =>
      this.eComPortInit fuel remoteReset idResponseBuffer idBufferLength := fueled_eComPortInit hcb
  have hsame (k : Nat) (hk : max N₁ N₂ ≤ k) : ∃ l₁ l₂ t₁ t₂,
      m₁.exec (this.eComPortInit k remoteReset idResponseBuffer idBufferLength) s₁ =
          (f k, l₁, t₁) ∧
        m₂.exec (this.eComPortInit k remoteReset idResponseBuffer idBufferLength) s₂ =
          (f k, l₂, t₂) ∧ this.written l₁ = ws ∧ this.written l₂ = ws := by
    obtain ⟨l₁, t₁, hexec₁, hws₁⟩ := hN₁ k ((Nat.le_max_left N₁ N₂).trans hk)
    obtain ⟨l₂, t₂, hexec₂, hws₂⟩ := hN₂ k ((Nat.le_max_right N₁ N₂).trans hk)
    exact ⟨l₁, l₂, t₁, t₂, hexec₁, hexec₂, hws₁, hws₂⟩
  have heq (k : Nat) (hk : max N₁ N₂ ≤ k) :
      (m₁.exec (this.eComPortInit k remoteReset idResponseBuffer idBufferLength) s₁).1 =
        (m₂.exec (this.eComPortInit k remoteReset idResponseBuffer idBufferLength) s₂).1 := by
    obtain ⟨l₁, l₂, t₁, t₂, hexec₁, hexec₂, -⟩ := hsame k hk
    rw [hexec₁, hexec₂]
  refine ⟨⟨hfueled.completes_of_eq heq,
    hfueled.completes_of_eq fun k hk => (heq k hk).symm⟩, ?_⟩
  intro n₁ n₂ out₁ out₂ l₁ l₂ t₁ t₂ hexec₁ hexec₂
  -- with enough turns for both the two calls end alike, and each as it did with its own
  obtain ⟨l₁', l₂', t₁', t₂', hsame₁, hsame₂, hws₁, hws₂⟩ :=
    hsame (max (max n₁ n₂) (max N₁ N₂)) (Nat.le_max_right _ _)
  have hlater₁ := hfueled.exec_eq hexec₁
    ((Nat.le_max_left n₁ n₂).trans (Nat.le_max_left _ (max N₁ N₂)))
  have hlater₂ := hfueled.exec_eq hexec₂
    ((Nat.le_max_right n₁ n₂).trans (Nat.le_max_left _ (max N₁ N₂)))
  rw [hlater₁] at hsame₁
  rw [hlater₂] at hsame₂
  obtain ⟨hout₁, hrest₁⟩ := Prod.mk.inj hsame₁
  obtain ⟨hout₂, hrest₂⟩ := Prod.mk.inj hsame₂
  rw [(Prod.mk.inj hrest₁).1, (Prod.mk.inj hrest₂).1, hws₁, hws₂]
  exact ⟨Except.ok.inj (hout₁.trans hout₂.symm), rfl⟩

theorem exec_eComPortTx_alike {payload : List UInt8} {actualLength : Nat}
    (halike : this.Alike m₁ m₂ ((encoded payload).map .send) s₁ s₂) :
    ∃ r l₁ l₂ t₁ t₂, m₁.exec (this.eComPortTx payload actualLength false) s₁ = (r, l₁, t₁) ∧
      m₂.exec (this.eComPortTx payload actualLength false) s₂ = (r, l₂, t₂) ∧
        this.written l₁ = this.written l₂ := by
  obtain ⟨bs, hcourse₁, hcourse₂⟩ := halike
  obtain ⟨code, ws, hsends⟩ := determined_sendBytes hcb (encoded payload) [] bs
  rw [List.append_nil] at hsends
  obtain ⟨n₁, l₁, t₁, hexec₁, hws₁, -⟩ := hsends _ m₁ s₁ hcourse₁
  obtain ⟨n₂, l₂, t₂, hexec₂, hws₂, -⟩ := hsends _ m₂ s₂ hcourse₂
  cases hinit : this.mIsComPortInited with
  | false =>
    have hrefused : this.eComPortTx payload actualLength false =
        pure (.requestFailed, actualLength) := by
      rw [eComPortTx, hinit]
      rfl
    rw [hrefused]
    exact ⟨_, [], [], s₁, s₂, rfl, rfl, rfl⟩
  | true =>
    cases hframe : preparedFrame payload with
    | error e =>
      have hhalts : this.eComPortTx payload actualLength false = halt e := by
        rw [eComPortTx, hinit]
        show (lift (preparedFrame payload) >>= _) = _
        rw [hframe]
        rfl
      rw [hhalts]
      exact ⟨_, [], [], s₁, s₂, rfl, rfl, rfl⟩
    | ok frame =>
      have hblock : this.eComSendBlock (encoded payload) false =
          this.eComSendBytes (encoded payload) := rfl
      rw [eComPortTx_encoded hinit (length_lt_of_prepared hframe), hblock, Machine.exec_bind_pure,
        Machine.exec_bind_pure, hexec₁ n₁ (Nat.le_refl _), hexec₂ n₂ (Nat.le_refl _)]
      exact ⟨_, l₁, l₂, t₁, t₂, rfl, rfl, hws₁.trans hws₂.symm⟩

variable (m₁ m₂ s₁ s₂) in
/-- `EComPort_Init` and a polled `EComPort_Tx` come out the same on two devices that show the same:
with the same code, the same identification in the buffer and the same bytes sent. -/
theorem eComPortInit_alike :
    (∀ remoteReset idResponseBuffer idBufferLength,
      this.Alike m₁ m₂ (handshake remoteReset) s₁ s₂ →
        (Completes m₁ (fun fuel =>
            this.eComPortInit fuel remoteReset idResponseBuffer idBufferLength) s₁ ↔
          Completes m₂ (fun fuel =>
            this.eComPortInit fuel remoteReset idResponseBuffer idBufferLength) s₂) ∧
        ∀ n₁ n₂ out₁ out₂ l₁ l₂ t₁ t₂,
          m₁.exec (this.eComPortInit n₁ remoteReset idResponseBuffer idBufferLength) s₁ =
              (.ok out₁, l₁, t₁) →
          m₂.exec (this.eComPortInit n₂ remoteReset idResponseBuffer idBufferLength) s₂ =
              (.ok out₂, l₂, t₂) →
            out₁ = out₂ ∧ this.written l₁ = this.written l₂) ∧
    ∀ payload actualLength, this.Alike m₁ m₂ ((encoded payload).map .send) s₁ s₂ →
      ∃ r l₁ l₂ t₁ t₂, m₁.exec (this.eComPortTx payload actualLength false) s₁ = (r, l₁, t₁) ∧
        m₂.exec (this.eComPortTx payload actualLength false) s₂ = (r, l₂, t₂) ∧
          this.written l₁ = this.written l₂ :=
  ⟨fun _ _ _ halike => exec_eComPortInit_alike hcb halike,
    fun _ _ halike => exec_eComPortTx_alike hcb halike⟩

end

/-! ### Devices given by their registers -/

section
variable {d d' : Device} {n : Nat} {accesses : List SDMRegisterAccess} {ss : List Stage}

def FaultFree (d : Device) : Prop := ∀ n, ¬Faulty (d.status.get n)

theorem FaultFree.skipStatus (h : FaultFree d) (n : Nat) : FaultFree (d.skipStatus n) := by
  intro i
  rw [Device.get_skipStatus]
  exact h (n + i)

theorem FaultFree.of_takes (h : FaultFree d) (htakes : Takes d d') : FaultFree d' := by
  obtain ⟨n, -, -, rfl⟩ := htakes
  exact h.skipStatus (n + 1)

theorem FaultFree.of_gives (h : FaultFree d) (hgives : Gives d d') : FaultFree d' := by
  obtain ⟨n, -, -, rfl⟩ := hgives
  exact h.skipStatus (n + 1)

/-- Without errors what is not ready in time is not ready at all. -/
theorem FaultFree.unready (h : FaultFree d) (hnone : ∀ k < maxRetries, ¬Ready level d k) :
    this.Unready (device this) level d := by
  have hidle (k : Nat) (hk : k < maxRetries) : level (statusOfSR (d.status.get k)) = 0 := by
    induction k using Nat.strong_induction_on with
    | _ k ih =>
      by_contra hready
      exact hnone k hk ⟨fun i hi => ⟨h i, ih i hi (hi.trans hk)⟩, h k, hready⟩
  have hlen : ((d.status.take maxRetries).map clean).length = maxRetries := by
    rw [List.length_map, Stream'.length_take]
  refine ⟨(d.status.take maxRetries).map clean, clean (d.status.get maxRetries), _,
    d.skipStatus (maxRetries + 1), hlen, ?_, pollResult_clean (h maxRetries), ?_⟩
  · exact pollResult_idle fun i hi => ⟨h i, hidle i hi⟩
  · rw [← List.append_nil (List.map _ _), plays_statuses, List.length_append, List.length_singleton,
      hlen, Stream'.take_succ', List.map_append]
    exact ⟨rfl, .nil _⟩

theorem Shows.after_noise {b : Beat} (hgives : this.GivesByte m s byte t) (hbyte : byte ≠ flag)
    (h : this.Shows m (.await flag) t b u) : this.Shows m (.await flag) s b u := by
  have hmem {noise : List UInt8} (hnoise : flag ∉ noise) : flag ∉ byte :: noise := by
    rw [List.mem_cons, not_or]
    exact ⟨Ne.symm hbyte, hnoise⟩
  cases h with
  | gives hnoise hflag hlast => exact .gives (.cons hgives hnoise) (hmem hflag) hlast
  | silent hnoise hflag hlast => exact .silent (.cons hgives hnoise) (hmem hflag) hlast

theorem FaultFree.shows_await (h : FaultFree d) (hends : EndsWait flag d n) :
    ∃ b d', this.Shows (device this) (.await flag) d b d' ∧ FaultFree d' := by
  induction n using Nat.strong_induction_on generalizing d with
  | _ n ih =>
    -- `n` bounds the bytes still to come before the wait ends
    by_cases hgives : ∃ d', Gives d d'
    · obtain ⟨d', hgives⟩ := hgives
      have hbyte : this.GivesByte (device this) d (d.byte 0) d' := givesByte_device.mpr ⟨hgives, rfl⟩
      by_cases hflag : d.byte 0 = flag
      · rw [hflag] at hbyte
        exact ⟨.gives, d', .gives (.nil d) List.not_mem_nil hbyte, h.of_gives hgives⟩
      · obtain ⟨k, hk, hends'⟩ := hends.gives hgives hflag
        obtain ⟨b, d'', hshows, hfree⟩ := ih k hk (h.of_gives hgives) hends'
        exact ⟨b, d'', hshows.after_noise hbyte hflag, hfree⟩
    · have hnone : this.Unready (device this) Status.rxData d :=
        h.unready fun k hk hready => hgives ⟨_, k, hk, hready, rfl⟩
      exact ⟨.silent, d, .silent (.nil d) List.not_mem_nil hnone, h⟩

theorem FaultFree.shows (hcb : this.mRegisterAccessCallback = true) (h : FaultFree d)
    (stage : Stage) : (∃ b d', this.Shows (device this) stage d b d' ∧ FaultFree d') ∨
      ∃ flag, stage = .await flag ∧ ¬Responds flag d := by
  cases stage with
  | send flag =>
    refine .inl ?_
    by_cases htakes : ∃ d', Takes d d'
    · obtain ⟨d', htakes⟩ := htakes
      exact ⟨.takes, d', .takes ((takesByte_device _).mpr htakes), h.of_takes htakes⟩
    · have hnone : this.Unready (device this) Status.txFree d :=
        h.unready fun k hk hready => htakes ⟨_, k, hk, hready, rfl⟩
      exact ⟨.full, d, .full hnone, h⟩
  | await flag =>
    by_cases hresp : Responds flag d
    · obtain ⟨n, hends⟩ := hresp
      exact .inl (h.shows_await hends)
    · exact .inr ⟨flag, rfl, hresp⟩
  | resetStart => exact .inl ⟨_, d, .resetStart rfl, h⟩
  | resetEnd => exact .inl ⟨_, d, .resetEnd rfl, h⟩
  | identify => exact .inl ⟨_, d, .delivers (deliversAll_device hcb d), h⟩

/-- A device without errors has a course through any stages, unless it keeps the driver waiting for
ever at one that it gets to. -/
theorem FaultFree.exists_course (hcb : this.mRegisterAccessCallback = true) (h : FaultFree d)
    (ss : List Stage) : (∃ bs, this.Course (device this) ss d bs) ∨
      ∃ ss₁ flag ss₂ d', ss = ss₁ ++ .await flag :: ss₂ ∧
        Steps (fun t stage u => ∃ b, this.Shows (device this) stage t b u ∧ b.code = .success)
          d ss₁ d' ∧ ¬Responds flag d' := by
  induction ss generalizing d with
  | nil => exact .inl ⟨[], .nil d⟩
  | cons stage ss ih =>
    rcases h.shows hcb stage with ⟨b, t, hshows, hfree⟩ | ⟨flag, rfl, hresp⟩
    · by_cases hcode : b.code = .success
      · rcases ih hfree with ⟨bs, hcourse⟩ | ⟨ss₁, flag, ss₂, d', rfl, hsteps, hresp⟩
        · exact .inl ⟨b :: bs, .go hshows hcode hcourse⟩
        · exact .inr ⟨stage :: ss₁, flag, ss₂, d', rfl, .cons ⟨b, hshows, hcode⟩ hsteps, hresp⟩
      · exact .inl ⟨[b], .stop hshows hcode⟩
    · exact .inr ⟨[], flag, ss, d, rfl, .nil d, hresp⟩

end

/-! ### Two paces -/

/-- What a target says in a handshake: its acknowledges, an identification of one byte, and
nothing more. -/
def answers : Stream' UInt32 :=
  [flagLPH1RL, flagLPH1RA, flagLPH2RA, flagIDA, 0x42, flagEND].map UInt8.toUInt32 ++ₛ Stream'.const 0

def promptDevice : Device := { idleDevice with data := answers }

/-- A device that is ready only from its second status on, and says another byte first. -/
def tardyDevice : Device where
  status := Stream'.cons 0 idleDevice.status
  data := Stream'.cons 0x55 answers
  resetStart := .success
  resetEnd := .success

section
variable {d : Device}

theorem ready_const (hd : d.status = Stream'.const 0x00010001)
    (hlevel : level (statusOfSR 0x00010001) ≠ 0) : Ready level d 0 := by
  have hsound : ¬Faulty (0x00010001 : UInt32) := by
    rw [Faulty]
    decide
  rw [ready_zero_iff, hd]
  exact ⟨hsound, hlevel⟩

theorem shows_takes (hd : d.status = Stream'.const 0x00010001) :
    this.Shows (device this) (.send flag) d .takes (d.skipStatus 1) :=
  .takes ((takesByte_device _).mpr ⟨0, by decide, ready_const hd (by decide), rfl⟩)

theorem givesByte_const (hd : d.status = Stream'.const 0x00010001) (hbyte : d.byte 0 = byte) :
    this.GivesByte (device this) d byte ((d.skipStatus 1).skipData 1) := by
  exact givesByte_device.mpr ⟨⟨0, by decide, ready_const hd (by decide), rfl⟩, hbyte⟩

theorem shows_gives (hd : d.status = Stream'.const 0x00010001) (hbyte : d.byte 0 = flag) :
    this.Shows (device this) (.await flag) d .gives ((d.skipStatus 1).skipData 1) :=
  .gives (.nil d) List.not_mem_nil (givesByte_const hd hbyte)

end

def linkedDevice : Device := promptDevice.skipData 1

theorem course_linked : inited.Course (device inited) ((handshake .none).drop 2) linkedDevice
    [.takes, .gives, .takes, .gives, .takes, .delivers ((answers.drop 3).map UInt32.toUInt8)] :=
  .go (shows_takes rfl) rfl <| .go (shows_gives rfl (by decide)) rfl <|
    .go (shows_takes rfl) rfl <| .go (shows_gives rfl (by decide)) rfl <|
    .go (shows_takes rfl) rfl <| .go (.delivers (deliversAll_device rfl _)) rfl <| .nil _

theorem shows_takes_tardy :
    inited.Shows (device inited) (.send flag) tardyDevice .takes (tardyDevice.skipStatus 2) := by
  have hidle : ¬Faulty (0 : UInt32) ∧ (statusOfSR 0).txFree = 0 := by
    rw [Faulty]
    decide
  have hready : Ready Status.txFree (tardyDevice.skipStatus 1) 0 := ready_const rfl (by decide)
  exact .takes ((takesByte_device _).mpr ⟨1, by decide, ready_succ_iff.mpr ⟨hidle, hready⟩, rfl⟩)

theorem alike_handshake : inited.Alike (device inited) (device inited) (handshake .none)
    promptDevice tardyDevice := by
  have hbyte : inited.GivesByte (device inited) (tardyDevice.skipStatus 2) 0x55
      (((tardyDevice.skipStatus 2).skipStatus 1).skipData 1) := givesByte_const rfl (by decide)
  have hflag : inited.GivesByte (device inited) (((tardyDevice.skipStatus 2).skipStatus 1).skipData 1)
      flagLPH1RL linkedDevice := givesByte_const rfl (by decide)
  refine ⟨[.takes, .gives, .takes, .gives, .takes, .gives, .takes,
    .delivers ((answers.drop 3).map UInt32.toUInt8)], ?_, ?_⟩
  · exact .go (shows_takes rfl) rfl <| .go (shows_gives rfl (by decide)) rfl course_linked
  · exact .go shows_takes_tardy rfl <|
      .go (.gives (.cons hbyte (.nil _)) (by decide) hflag) rfl course_linked

theorem alike_frame : inited.Alike (device inited) (device inited) ((encoded [0x41]).map .send)
    promptDevice tardyDevice := by
  have hframe : encoded [0x41] = [flagSTART, 0x41, flagEND] := encoded_eq_frame (by decide)
  rw [hframe]
  refine ⟨[.takes, .takes, .takes], ?_, ?_⟩
  · exact .go (shows_takes rfl) rfl <| .go (shows_takes rfl) rfl <| .go (shows_takes rfl) rfl (.nil _)
  · exact .go shows_takes_tardy rfl <| .go (shows_takes rfl) rfl <| .go (shows_takes rfl) rfl (.nil _)

theorem eComPortInit_alike_tardy :
    ((Completes (device inited) (fun fuel => inited.eComPortInit fuel .none [0] 1) promptDevice ↔
        Completes (device inited) (fun fuel => inited.eComPortInit fuel .none [0] 1) tardyDevice) ∧
      ∀ n₁ n₂ out₁ out₂ l₁ l₂ t₁ t₂,
        (device inited).exec (inited.eComPortInit n₁ .none [0] 1) promptDevice = (.ok out₁, l₁, t₁) →
        (device inited).exec (inited.eComPortInit n₂ .none [0] 1) tardyDevice = (.ok out₂, l₂, t₂) →
          out₁ = out₂ ∧ inited.written l₁ = inited.written l₂) ∧
    ∃ r l₁ l₂ t₁ t₂,
      (device inited).exec (inited.eComPortTx [0x41] 0 false) promptDevice = (r, l₁, t₁) ∧
      (device inited).exec (inited.eComPortTx [0x41] 0 false) tardyDevice = (r, l₂, t₂) ∧
        inited.written l₁ = inited.written l₂ := by
  have hcb : inited.mRegisterAccessCallback = true := rfl
  have h := eComPortInit_alike (device inited) (device inited) promptDevice tardyDevice hcb
  exact ⟨h.1 .none [0] 1 alike_handshake, h.2 [0x41] 0 alike_frame⟩

end ExternalComPortDriver
end SecureDebug
