import SecureDebug.Manager.Verdict

/-! `SDMAuthenticate` in two parts: up to the answer to `AUTH_START`, and what is made of it. Only
the second part uses what is in the message buffer. -/

namespace SecureDebug
open Interaction Program Framing

def reads (driver : ExternalComPortDriver) (l : Trace) : List UInt8 :=
  (driver.traffic l).filterMap heard

theorem reads_append (driver : ExternalComPortDriver) (l l' : Trace) :
    reads driver (l ++ l') = reads driver l ++ reads driver l' := by
  rw [reads, ExternalComPortDriver.traffic_append, List.filterMap_append]
  rfl

theorem reads_of_writes {l : Trace} {driver : ExternalComPortDriver}
    (h : ∀ o ∈ driver.traffic l, ∀ byte, o ≠ .read byte) : reads driver l = [] := by
  rw [reads, List.filterMap_eq_nil_iff]
  intro o ho
  cases o with
  | read byte => exact absurd rfl (h _ ho byte)
  | _ => rfl

theorem reads_of_map {l : Trace} {driver : ExternalComPortDriver} {bytes : List UInt8}
    (h : driver.traffic l = bytes.map .read) : reads driver l = bytes := by
  have hread : heard ∘ Observation.read = some := rfl
  rw [reads, h, List.filterMap_map, hread, List.filterMap_some]

namespace SecureDebugManagerImpl
variable {this : SecureDebugManagerImpl} {psa : PsaAdac} {fuel : Nat}

/-- `SDMAuthenticate` until the answer is there: the code, the credentials and the buffer. -/
def awaitChallenge (this : SecureDebugManagerImpl) (psa : PsaAdac) (fuel : Nat) :
    Sdm (SDMReturnCode × Credentials × List UInt8) := do
  let (res, credentials) ← this.requestChallenge psa
  if res ≠ .success then return (res, credentials, this.mMsgBuffer)
  let max := this.mMsgBuffer.length - sizeofPacket
  let (res, response) ← this.responsePacketReceive fuel this.mMsgBuffer max
  return (res, credentials, response)

/-- `SDMAuthenticate` from there on. -/
def takeChallenge (psa : PsaAdac) (fuel : Nat) (res : SDMReturnCode) (credentials : Credentials)
    (this : SecureDebugManagerImpl) : Sdm (SDMReturnCode × SecureDebugManagerImpl) := do
  if res ≠ .success then return (.internalError, this)
  if packetDataCount this.mMsgBuffer * 4 % 2 ^ 32 ≠ psa.sizeofPsaAuthChallenge then
    return (.internalError, this)
  let challenge ← lift (peek this.mMsgBuffer sizeofPacket psa.sizeofPsaAuthChallenge)
  signAndRespond psa fuel credentials challenge this

theorem sdmAuthenticate_eq_await (hopen : this.mOpen = true) :
    this.sdmAuthenticate psa fuel = this.awaitChallenge psa fuel >>= fun out =>
      takeChallenge psa fuel out.1 out.2.1 { this with mMsgBuffer := out.2.2 } := by
  rw [sdmAuthenticate_eq_request hopen, awaitChallenge, bind_assoc]
  apply bind_congr
  intro requested
  dsimp only
  by_cases hrequested : requested.1 = .success
  · rw [if_neg (not_not.mpr hrequested), if_neg (not_not.mpr hrequested), bind_assoc,
      receiveAuthStartCmdResponse, bind_assoc]
    apply bind_congr
    intro received
    rw [pure_bind, takeChallenge]
    dsimp only
    by_cases hreceived : received.1 = .success
    · rw [if_neg (not_not.mpr hreceived), if_neg (not_not.mpr hreceived)]
      by_cases hcount : packetDataCount received.2 * 4 % 2 ^ 32 ≠ psa.sizeofPsaAuthChallenge
      · rw [if_pos hcount, if_pos hcount, pure_bind]
        rfl
      · rw [if_neg hcount, if_neg hcount, bind_assoc]
        rfl
    · rw [if_pos hreceived, if_pos hreceived, pure_bind, if_pos hreceived]
  · rw [if_pos hrequested, if_pos hrequested, pure_bind, takeChallenge, if_pos hrequested]

variable {driver : ExternalComPortDriver} {l : Trace}

theorem reads_requestChallenge {r : Except Stop (SDMReturnCode × Credentials)}
    (ho : this.IsOpen driver) (h : Run (this.requestChallenge psa) l r) : reads driver l = [] :=
  reads_of_writes (writes_requestChallenge ho _ _ h)

theorem run_awaitChallenge {r : Except Stop (SDMReturnCode × Credentials × List UInt8)}
    (ho : this.IsOpen driver) (h : Run (this.awaitChallenge psa fuel) l r) :
    (Framed (reads driver l) → ∃ credentials, r = .ok (.success, credentials,
      overlay this.mMsgBuffer (reception (reads driver l)).image)) ∧
    ∀ credentials response, r = .ok (.success, credentials, response) →
      Framed (reads driver l) := by
  unfold awaitChallenge at h
  rcases run_bind.mp h with ⟨⟨sent, credentials⟩, l₁, l₂, rfl, h₁, h₂⟩ | ⟨e, rfl, he⟩
  swap
  · rw [reads_requestChallenge ho he]
    exact ⟨fun hframed => absurd hframed not_framed_nil, fun _ _ hr => nomatch hr⟩
  rw [reads_append, reads_requestChallenge ho h₁, List.nil_append]
  dsimp only at h₂
  by_cases hsent : sent ≠ .success
  · rw [if_pos hsent] at h₂
    obtain ⟨rfl, rfl⟩ := run_pure.mp h₂
    refine ⟨fun hframed => absurd hframed not_framed_nil, fun _ _ hr => ?_⟩
    exact absurd (Prod.mk.inj (Except.ok.inj hr)).1 hsent
  rw [if_neg hsent, ho.size] at h₂
  rcases run_bind.mp h₂ with ⟨⟨received, response⟩, l₃, l₄, rfl, h₃, h₄⟩ | ⟨e, rfl, he⟩
  · obtain ⟨rfl, rfl⟩ := run_pure.mp h₄
    obtain ⟨bytes, ht, hframed, hsuccess⟩ := run_responsePacketReceive ho ho.size h₃
    rw [List.append_nil, reads_of_map ht]
    refine ⟨fun hbytes => ⟨credentials, ?_⟩, fun _ _ hr => ?_⟩
    · obtain ⟨rfl, rfl⟩ := Prod.mk.inj (Except.ok.inj (hframed hbytes))
      rfl
    · obtain ⟨rfl, -⟩ := Prod.mk.inj (Except.ok.inj hr)
      exact hsuccess response rfl
  · obtain ⟨bytes, ht, hframed, -⟩ := run_responsePacketReceive ho ho.size he
    rw [reads_of_map ht]
    refine ⟨fun hbytes => ?_, fun _ _ hr => nomatch hr⟩
    cases hframed hbytes

end SecureDebugManagerImpl
end SecureDebug
