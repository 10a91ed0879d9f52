import SecureDebug.Interaction.Carrying
import SecureDebug.Interaction.Serving

/-! What psa-adac gets hashed by: a message that comes in parts goes through one hash operation of PSA
Crypto, part by part. -/

namespace SecureDebug.Crypto
open Interaction Program

abbrev PsaAlgorithm := UInt32

inductive PsaStatus where
  | success
  | errorNotSupported
  | other (code : Int)
  deriving DecidableEq, Repr

inductive PsaCall where
  | psaHashSetup (alg : PsaAlgorithm)
  | psaHashUpdate (input : List UInt8)
  | psaHashFinish (hashSize : Nat)
  deriving DecidableEq, Repr

/-- Behind the status of the last one comes what is then in `hash` and in `hash_length`. -/
abbrev PsaCall.Answer : PsaCall → Type
  | psaHashSetup _ => PsaStatus
  | psaHashUpdate _ => PsaStatus
  | psaHashFinish hashSize => PsaStatus × Vector UInt8 hashSize × Nat

abbrev PsaCrypto : Interface := ⟨PsaCall, PsaCall.Answer⟩

abbrev Psa (α : Type) := Program PsaCrypto Empty α

abbrev callPsa (c : PsaCall) : Psa c.Answer := Program.perform (I := PsaCrypto) c

variable (psaAlgIsVendorDefined : PsaAlgorithm → Bool)

def hashUpdates : List (List UInt8) → PsaStatus → Psa PsaStatus
  | [], status => return status
  | input :: inputs, status =>
    if status = .success then do
      let status ← callPsa (.psaHashUpdate input)
      hashUpdates inputs status
    else return status

/-- `hash` and `hashLength` are what is in memory, before and behind. -/
def psaAdacHashMultiple {hashSize : Nat} (alg : PsaAlgorithm) (inputs : List (List UInt8))
    (hash : Vector UInt8 hashSize) (hashLength : Nat) :
    Psa (PsaStatus × Vector UInt8 hashSize × Nat) := do
  if psaAlgIsVendorDefined alg then return (.errorNotSupported, hash, hashLength)
  let status ← callPsa (.psaHashSetup alg)
  let status ← hashUpdates inputs status
  if status = .success then callPsa (.psaHashFinish hashSize)
  else return (status, hash, hashLength)

def psaAdacHash {hashSize : Nat} (alg : PsaAlgorithm) (input : List UInt8)
    (hash : Vector UInt8 hashSize) (hashLength : Nat) :
    Psa (PsaStatus × Vector UInt8 hashSize × Nat) :=
  psaAdacHashMultiple psaAlgIsVendorDefined alg [input] hash hashLength

/-! ### What is called -/

def statusOf : Event PsaCrypto → PsaStatus
  | ⟨.psaHashSetup _, (status : PsaStatus)⟩ => status
  | ⟨.psaHashUpdate _, (status : PsaStatus)⟩ => status
  | ⟨.psaHashFinish _, (out : PsaStatus × Vector UInt8 _ × Nat)⟩ => out.1

def hashCalls (alg : PsaAlgorithm) (inputs : List (List UInt8)) (hashSize : Nat) : List PsaCall :=
  .psaHashSetup alg :: inputs.map .psaHashUpdate ++ [.psaHashFinish hashSize]

def statusPlan : Plan PsaCall (Event PsaCrypto) where
  Done c t := ∃ e, t = [e] ∧ e.call = c ∧ statusOf e = .success
  Cut c t := ∃ e, t = [e] ∧ e.call = c ∧ statusOf e ≠ .success

section
variable {psaAlgIsVendorDefined : PsaAlgorithm → Bool} {alg : PsaAlgorithm}
  {inputs : List (List UInt8)} {status : PsaStatus} {hashSize hashLength : Nat}
  {hash : Vector UInt8 hashSize} {l : List (Event PsaCrypto)}

theorem carries_callPsa (c : PsaCall) :
    Carries statusPlan id (callPsa c) (fun ans => statusOf ⟨c, ans⟩ = .success) [c] := by
  refine carries_single fun l r hrun => ?_
  obtain ⟨ans, rfl, rfl⟩ := run_perform.mp hrun
  by_cases h : statusOf ⟨c, ans⟩ = .success
  · exact .inl ⟨⟨_, rfl, rfl, h⟩, ans, rfl, h⟩
  · refine .inr ⟨⟨_, rfl, rfl, h⟩, ?_⟩
    rintro ⟨ans', hans, hgood⟩
    rw [← Except.ok.inj hans] at hgood
    exact h hgood

theorem hashUpdates_of_ne (h : status ≠ .success) : hashUpdates inputs status = pure status := by
  cases inputs with
  | nil => rfl
  | cons input inputs => simp [hashUpdates, h]

theorem carries_hashUpdates : Carries statusPlan id (hashUpdates inputs .success) (· = .success)
    (inputs.map .psaHashUpdate) := by
  induction inputs with
  | nil => exact carries_pure rfl rfl
  | cons input inputs ih =>
    rw [hashUpdates, if_pos rfl, List.map_cons, ← List.singleton_append]
    refine (carries_callPsa (.psaHashUpdate input)).bind (fun _ _ => rfl)
      (fun _ status _ hgood => ?_) ?_
    · rw [show status = .success from hgood]
      exact ih
    · exact fun status hbad => ⟨status, hbad, hashUpdates_of_ne hbad⟩

theorem carries_psaAdacHashMultiple (halg : psaAlgIsVendorDefined alg = false) :
    Carries statusPlan id (psaAdacHashMultiple psaAlgIsVendorDefined alg inputs hash hashLength)
      (·.1 = .success) (hashCalls alg inputs hashSize) := by
  rw [psaAdacHashMultiple, halg, if_neg Bool.false_ne_true, hashCalls, List.cons_append,
    ← List.singleton_append]
  have hfinish (status : PsaStatus) (hstatus : status = .success) : Carries statusPlan id
      (if status = .success then callPsa (.psaHashFinish hashSize)
        else return (status, hash, hashLength)) (·.1 = .success) [.psaHashFinish hashSize] := by
    rw [if_pos hstatus]
    exact carries_callPsa _
  refine (carries_callPsa (.psaHashSetup alg)).bind (fun _ _ => rfl) (fun _ status _ hgood => ?_) ?_
  · rw [show status = .success from hgood]
    refine carries_hashUpdates.bind (fun _ _ => rfl) (fun _ status _ => hfinish status) ?_
    exact fun status hbad => ⟨(status, hash, hashLength), hbad, if_neg hbad⟩
  · -- the loop is entered also behind a setup that failed, and left at once
    intro status hbad
    have hstop : hashUpdates inputs status = pure status := hashUpdates_of_ne hbad
    refine ⟨(status, hash, hashLength), hbad, ?_⟩
    rw [hstop, pure_bind]
    exact if_neg hbad

/-! ### What is hashed -/

/-- A hash operation as PSA Crypto has it: what is fed to it is appended to the message, and a call
that fails leaves it without one. The monitor objects to an implementation that does otherwise. -/
def operation (digest : PsaAlgorithm → List UInt8 → List UInt8) :
    Monitor PsaCrypto (Option (PsaAlgorithm × List UInt8))
  | _, ⟨.psaHashSetup alg, (status : PsaStatus)⟩ =>
    some (if status = .success then some (alg, []) else none)
  | none, e => if statusOf e = .success then none else some none
  | some (alg, message), ⟨.psaHashUpdate input, (status : PsaStatus)⟩ =>
    some (if status = .success then some (alg, message ++ input) else none)
  -- of the memory for the hash only `hash_length` bytes are the digest
  | some (alg, message), ⟨.psaHashFinish _, (out : PsaStatus × Vector UInt8 _ × Nat)⟩ =>
    if out.1 = .success ∧ out.2.1.toList.take out.2.2 ≠ digest alg message then none else some none

variable {digest : PsaAlgorithm → List UInt8 → List UInt8} {message : List UInt8}
  {s : Option (PsaAlgorithm × List UInt8)}

theorem message_hashUpdates (hrun : Run (hashUpdates inputs .success) l (.ok .success))
    (hfollow : (operation digest).follow (some (alg, message)) l = some s) :
    s = some (alg, message ++ inputs.flatten) := by
  induction inputs generalizing l message with
  | nil =>
    obtain ⟨rfl, -⟩ := run_pure.mp hrun
    simpa [Monitor.follow] using hfollow.symm
  | cons input inputs ih =>
    rw [hashUpdates, if_pos rfl] at hrun
    obtain ⟨status, l₁, l₂, rfl, h₁, h₂⟩ := run_bind_ok.mp hrun
    obtain ⟨_, rfl, hstatus⟩ := run_perform.mp h₁
    obtain rfl := Except.ok.inj hstatus
    obtain ⟨t, ht, hrest⟩ := follow_cons.mp hfollow
    by_cases hgood : status = .success
    · subst hgood
      obtain rfl : some (alg, message ++ input) = t := by simpa [operation] using ht
      rw [List.flatten_cons, ← List.append_assoc]
      exact ih h₂ hrest
    · -- a part that failed would be the last, and the loop would not end well
      rw [hashUpdates_of_ne hgood] at h₂
      exact absurd (run_pure_ok.mp h₂).2.symm hgood

variable {out : PsaStatus × Vector UInt8 hashSize × Nat}

theorem hash_of_run
    (hrun : Run (psaAdacHashMultiple psaAlgIsVendorDefined alg inputs hash hashLength) l (.ok out))
    (hfollow : ((operation digest).follow s l).isSome) (hout : out.1 = .success) :
    out.2.1.toList.take out.2.2 = digest alg inputs.flatten := by
  rw [psaAdacHashMultiple] at hrun
  split_ifs at hrun
  · rw [(run_pure_ok.mp hrun).2] at hout
    cases hout
  obtain ⟨status, l₁, l', rfl, h₁, h'⟩ := run_bind_ok.mp hrun
  obtain ⟨updated, l₂, l₃, rfl, h₂, h₃⟩ := run_bind_ok.mp h'
  obtain ⟨_, rfl, hstatus⟩ := run_perform.mp h₁
  obtain rfl := Except.ok.inj hstatus
  by_cases hupdated : updated = .success
  swap
  · rw [if_neg hupdated] at h₃
    exact absurd hout (by rw [(run_pure_ok.mp h₃).2]; exact hupdated)
  obtain rfl := hupdated
  by_cases hgood : status = .success
  swap
  · rw [hashUpdates_of_ne hgood] at h₂
    exact absurd (run_pure_ok.mp h₂).2.symm hgood
  subst hgood
  rw [if_pos rfl] at h₃
  obtain ⟨_, rfl, hans⟩ := run_perform.mp h₃
  obtain rfl := Except.ok.inj hans
  obtain ⟨u, hu⟩ := Option.isSome_iff_exists.mp hfollow
  obtain ⟨t, ht, hrest⟩ := follow_append.mp hu
  obtain ⟨t', ht', hfinish⟩ := follow_append.mp hrest
  obtain rfl : some (alg, []) = t := by simpa [Monitor.follow, operation] using ht
  obtain rfl := message_hashUpdates h₂ ht'
  obtain ⟨v, hv, -⟩ := follow_cons.mp hfinish
  by_contra hne
  simp [operation, hout, hne] at hv

/-- Of an algorithm that is not the vendor's, the calls are made in order, each behind good ones, and
the first that fails is the last. If none does the hash is that of the parts joined: on everything
that treats an operation as PSA Crypto does, however the message is cut. -/
theorem psaAdacHashMultiple_digest
    (hrun : Run (psaAdacHashMultiple psaAlgIsVendorDefined alg inputs hash hashLength) l (.ok out)) :
    (psaAlgIsVendorDefined alg = true → l = [] ∧ out.1 = .errorNotSupported) ∧
      (psaAlgIsVendorDefined alg = false →
        ∃ c, statusPlan.Follows (hashCalls alg inputs hashSize) l c ∧ (c = true ↔ out.1 = .success)) ∧
      ∀ digest s, ((operation digest).follow s l).isSome → out.1 = .success →
        out.2.1.toList.take out.2.2 = digest alg inputs.flatten := by
  refine ⟨fun halg => ?_, fun halg => ?_, fun digest s => hash_of_run hrun⟩
  · rw [psaAdacHashMultiple, if_pos halg] at hrun
    obtain ⟨hl, hout⟩ := run_pure_ok.mp hrun
    exact ⟨hl, by rw [hout]⟩
  · obtain ⟨c, hfollows, hc⟩ := carries_psaAdacHashMultiple halg _ _ hrun
    refine ⟨c, hfollows, hc.trans ?_⟩
    simp

def sha256 (alg : PsaAlgorithm) (message : List UInt8) : List UInt8 :=
  if alg = 0x02000009 ∧ message = [0x61, 0x62, 0x63] then
    [0xba, 0x78, 0x16, 0xbf, 0x8f, 0x01, 0xcf, 0xea, 0x41, 0x41, 0x40, 0xde, 0x5d, 0xae, 0x22, 0x23,
      0xb0, 0x03, 0x61, 0xa3, 0x96, 0x17, 0x7a, 0x9c, 0xb4, 0x10, 0xff, 0x61, 0xf2, 0x00, 0x15, 0xad]
  else []

def flawless : Machine PsaCrypto (PsaAlgorithm × List UInt8) where
  answer
    | .psaHashSetup alg, _ => (.success, alg, [])
    | .psaHashUpdate input, s => (.success, s.1, s.2 ++ input)
    | .psaHashFinish hashSize, s =>
      let hash := sha256 s.1 s.2
      ((.success, Vector.ofFn fun i : Fin hashSize => hash.getD i.1 0, hash.length), s)

def sampleHash : Except Empty (PsaStatus × Vector UInt8 32 × Nat) × List (Event PsaCrypto) ×
    PsaAlgorithm × List UInt8 :=
  flawless.exec (psaAdacHashMultiple (fun alg => alg &&& 0x80000000 ≠ 0) 0x02000009
    [[0x61], [0x62, 0x63]] (Vector.replicate 32 0) 0) (0, [])

theorem psaAdacHashMultiple_digest_abc : ∃ out, sampleHash.1 = .ok out ∧
    out.2.1.toList.take out.2.2 = sha256 0x02000009 [0x61, 0x62, 0x63] := by
  have hrun := Machine.exec_run flawless (psaAdacHashMultiple (fun alg => alg &&& 0x80000000 ≠ 0)
    0x02000009 [[0x61], [0x62, 0x63]] (Vector.replicate 32 0) 0) (0, [])
  have hfollow : ((operation sha256).follow none sampleHash.2.1).isSome := by decide +kernel
  have hgood : sampleHash.1.map Prod.fst = .ok .success := by decide +kernel
  cases hout : sampleHash.1 with
  | error e => cases e
  | ok out =>
    rw [hout] at hgood
    rw [← sampleHash, hout] at hrun
    have hdigest := (psaAdacHashMultiple_digest hrun).2.2 sha256 none hfollow (Except.ok.inj hgood)
    exact ⟨out, rfl, hdigest⟩

theorem psaAdacHash_parts {hashSize' : Nat} {l' : List (Event PsaCrypto)}
    {s' : Option (PsaAlgorithm × List UInt8)} {hash' : Vector UInt8 hashSize'}
    {out' : PsaStatus × Vector UInt8 hashSize' × Nat}
    (hrun : Run (psaAdacHashMultiple psaAlgIsVendorDefined alg inputs hash hashLength) l (.ok out))
    (hfollow : ((operation digest).follow s l).isSome) (hout : out.1 = .success)
    (hrun' : Run (psaAdacHash psaAlgIsVendorDefined alg inputs.flatten hash' hashLength) l' (.ok out'))
    (hfollow' : ((operation digest).follow s' l').isSome) (hout' : out'.1 = .success) :
    out.2.1.toList.take out.2.2 = out'.2.1.toList.take out'.2.2 := by
  rw [hash_of_run hrun hfollow hout, hash_of_run hrun' hfollow' hout', List.flatten_singleton]

end
end SecureDebug.Crypto
