import SecureDebug.Example.Bench
import SecureDebug.Example.Calls
import SecureDebug.Manager.Script

/-! What becomes of the lines that the user types. The callback trims each of them and the library
trims it again, which changes nothing; the one is opened as the key, the other as the trust chain,
and what they hold is what signs the token and what is sent to the target. -/

namespace SecureDebug

theorem toList_userInputStringTrim (inputText : String) :
    (userInputStringTrim inputText).toList = (inputText.toList.rdropWhile isSpace).dropWhile isSpace :=
  String.toList_ofList

/-- What is left of a line when its front is trimmed ends where it ended. -/
theorem rdropWhile_dropWhile {α : Type} (p : α → Bool) (l : List α) :
    ((l.rdropWhile p).dropWhile p).rdropWhile p = (l.rdropWhile p).dropWhile p := by
  rw [List.rdropWhile_eq_self_iff]
  intro hne
  have hsuffix := List.dropWhile_suffix p (l := l.rdropWhile p)
  have hne' : l.rdropWhile p ≠ [] := fun h => hne (by rw [h]; rfl)
  rw [hsuffix.getLast hne]
  exact List.rdropWhile_last_not p l hne'

@[simp] theorem userInputStringTrim_trim (inputText : String) :
    userInputStringTrim (userInputStringTrim inputText) = userInputStringTrim inputText := by
  rw [← String.toList_inj, toList_userInputStringTrim, toList_userInputStringTrim,
    rdropWhile_dropWhile, List.dropWhile_idempotent]

end SecureDebug

namespace SecureDebug.Example
open Interaction Program ExternalComPortDriver SecureDebugManagerImpl

/-- The lines read so far, what the files hold that they name, and whether a token was signed and the
chain split. -/
structure Inputs where
  lines : List String := []
  key : Option (UInt8 × UInt32) := none
  chain : Option (List UInt8) := none
  signed : Bool := false
  split : Bool := false
  deriving DecidableEq, Repr

namespace Inputs
variable (psa : PsaAdac)

def paths (s : Inputs) : List String := s.lines.map userInputStringTrim

def Admits (s : Inputs) : RddiCall → Prop
  | .fgets size => size = filenameMax ∧ s.lines.length < 2
  | .library (.importPrivateKey path) =>
    s.key = none ∧ s.lines.length = 2 ∧ s.paths[0]? = some path
  | .library (.loadTrustChain path) => s.key ≠ none ∧ s.chain = none ∧ s.paths[1]? = some path
  | .library (.psaAdacSignToken challenge signatureType handle) =>
    s.signed = false ∧ s.chain ≠ none ∧ s.key = some (signatureType, handle) ∧
      challenge.length = psa.sizeofChallengeVector
  | .library (.splitTlvStatic chain) => s.signed = true ∧ s.split = false ∧ s.chain = some chain
  | .library .psaAdacInit => s.lines = []
  | .library (.uninitialised _) => True
  | .library .newImpl => s.lines = []
  | .library _ => False
  | _ => True

def behind (s : Inputs) : Event Rddi → Inputs
  | ⟨.fgets _, (some userInput : Option (Line _))⟩ => { s with lines := s.lines ++ [userInput.text] }
  | ⟨.library (.importPrivateKey _), (out : Int × UInt8 × UInt32)⟩ => { s with key := some out.2 }
  | ⟨.library (.loadTrustChain _), (out : Int × List UInt8)⟩ => { s with chain := some out.2 }
  | ⟨.library (.psaAdacSignToken _ _ _), _⟩ => { s with signed := true }
  | ⟨.library (.splitTlvStatic _), _⟩ => { s with split := true }
  | _ => s

instance (s : Inputs) : (c : RddiCall) → Decidable (s.Admits psa c)
  | .fgets _ => inferInstanceAs (Decidable (_ ∧ _))
  | .library (.importPrivateKey _) => inferInstanceAs (Decidable (_ ∧ _ ∧ _))
  | .library (.loadTrustChain _) => inferInstanceAs (Decidable (_ ∧ _ ∧ _))
  | .library (.psaAdacSignToken _ _ _) => inferInstanceAs (Decidable (_ ∧ _ ∧ _ ∧ _))
  | .library (.splitTlvStatic _) => inferInstanceAs (Decidable (_ ∧ _ ∧ _))
  | .library .psaAdacInit => inferInstanceAs (Decidable (s.lines = []))
  | .library (.uninitialised _) => inferInstanceAs (Decidable True)
  | .library .newImpl => inferInstanceAs (Decidable (s.lines = []))
  | .library (.registerAccess _) => inferInstanceAs (Decidable False)
  | .library .resetStart => inferInstanceAs (Decidable False)
  | .library .resetEnd => inferInstanceAs (Decidable False)
  | .library (.updateProgress _ _) => inferInstanceAs (Decidable False)
  | .library (.presentForm _) => inferInstanceAs (Decidable False)
  | .rddiOpen => inferInstanceAs (Decidable True)
  | .rddiClose _ => inferInstanceAs (Decidable True)
  | .configInfoOpenFileAndRetarget _ _ _ => inferInstanceAs (Decidable True)
  | .debugConnect _ => inferInstanceAs (Decidable True)
  | .debugDisconnect _ => inferInstanceAs (Decidable True)
  | .debugOpenConn _ _ => inferInstanceAs (Decidable True)
  | .debugCloseConn _ _ => inferInstanceAs (Decidable True)
  | .debugRegReadBlock _ _ _ => inferInstanceAs (Decidable True)
  | .debugRegWriteBlock _ _ _ _ => inferInstanceAs (Decidable True)
  | .debugRegRWList _ _ _ => inferInstanceAs (Decidable True)
  | .debugSystemReset _ _ => inferInstanceAs (Decidable True)

end Inputs

def inputs (psa : PsaAdac) : Monitor Rddi Inputs := fun s e =>
  if s.Admits psa e.call then some (s.behind e) else none

section
variable {psa : PsaAdac} {s t : Inputs} {α : Type}

theorem inputs_of_uses {kinds : List CallKind} {p : Client α} (hp : Uses kinds p)
    (hinput : .input ∉ kinds) (hlibrary : .library ∉ kinds) :
    Abides (inputs psa) (fun _ t => t = s) p s := by
  refine abides_of_makes (rig scripted) (0, []) hp fun c ans hc => ?_
  cases c with
  | fgets => exact absurd hc hinput
  | library => exact absurd hc hlibrary
  | _ => rfl

theorem inputs_library {c : HostCall} {Q : c.Answer → Inputs → Prop}
    (hadmits : s.Admits psa (.library c)) (hQ : ∀ ans, Q ans (s.behind ⟨.library c, ans⟩)) :
    Abides (inputs psa) Q (callRddi (.library c)) s :=
  abides_perform fun ans => ⟨_, if_pos hadmits, hQ ans⟩

/-! ### The form -/

theorem inputs_presentElements (elements : List SDMFormElement)
    (hroom : s.lines.length + elements.length ≤ 2) :
    Abides (inputs psa) (fun out t => out.1 = .success → ∃ lines : List String,
      lines.length = elements.length ∧ t = { s with lines := s.lines ++ lines } ∧
      out.2.toList = lines.map userInputStringTrim) (presentElements elements) s := by
  induction elements generalizing s with
  | nil => exact fun _ => ⟨[], rfl, by rw [List.append_nil], rfl⟩
  | cons element elements ih =>
    rw [List.length_cons] at hroom
    rw [presentElements]
    refine abides_ite (fun _ h => by cases h) fun _ => ?_
    have hadmits : s.Admits psa (.fgets filenameMax) := ⟨rfl, by omega⟩
    intro userInput
    refine ⟨_, if_pos hadmits, ?_⟩
    cases userInput with
    | none => exact fun h => by cases h
    | some userInput =>
      refine abides_ite (fun _ h => by cases h) fun _ => ?_
      have hnext : (s.lines ++ [userInput.text]).length + elements.length ≤ 2 := by
        rw [List.length_append, List.length_singleton]
        omega
      have hrest := ih (s := { s with lines := s.lines ++ [userInput.text] }) hnext
      refine hrest.bind fun out t ht hres => ?_
      obtain ⟨lines, hlen, ht, hpaths⟩ := ht hres
      refine ⟨userInput.text :: lines, by rw [List.length_cons, hlen, List.length_cons], ?_, ?_⟩
      · rw [ht, List.append_assoc, List.singleton_append]
      · rw [List.map_cons, ← hpaths]
        rfl

theorem getD_eq_toList {n : Nat} (paths : Vector String n) (i : Nat) :
    paths.getD i "" = paths.toList.getD i "" := by
  rw [Vector.getD, Array.getD_eq_getD_getElem?, ← Array.getElem?_toList]
  rfl

theorem inputs_presentForm (hlines : s.lines = []) :
    Abides (inputs psa) (fun out t => out.1 = .success → ∃ keyFile chainFile,
      t = { s with lines := [keyFile, chainFile] } ∧
      out.2.getD 0 "" = userInputStringTrim keyFile ∧ out.2.getD 1 "" = userInputStringTrim chainFile)
      (presentForm credentialsForm) s := by
  refine (inputs_presentElements _ (by rw [hlines]; decide)).mono fun out t ht hres => ?_
  obtain ⟨lines, hlen, ht, hpaths⟩ := ht hres
  obtain ⟨keyFile, chainFile, rfl⟩ := List.length_eq_two.mp hlen
  refine ⟨keyFile, chainFile, by rw [ht, hlines, List.nil_append], ?_, ?_⟩
  · rw [getD_eq_toList, hpaths]
    rfl
  · rw [getD_eq_toList, hpaths]
    rfl

/-! ### The library -/

/-- What the script of the library knows of the inputs. -/
structure Knows (w : Script) (s : Inputs) : Prop where
  lines : w.paths = none → s.lines = []
  paths : ∀ paths ∈ w.paths, ∃ keyFile chainFile, s.lines = [keyFile, chainFile] ∧
    paths = (userInputStringTrim keyFile, userInputStringTrim chainFile)
  key : s.key = w.key
  chain : s.chain = w.chain
  signed : s.signed = w.signed
  split : s.split = w.split

/-- What the steps up to the one that was reported have done. -/
structure Sound (w : Script) : Prop where
  start : w.step = 0 → w.paths = none
  paths : w.key ≠ none → w.paths ≠ none
  key : w.chain ≠ none → w.key ≠ none
  chain : 2 ≤ w.step → w.chain ≠ none
  signed : 5 ≤ w.step → w.signed = true
  split : 6 ≤ w.step → w.split = true

theorem script_eq_some {driver : ExternalComPortDriver} {w w' : Script} {e : Event Host}
    (h : script psa driver w e = some w') : w.Admits psa driver e.call ∧ w.behind e = w' :=
  Option.ite_none_right_eq_some.mp h |>.imp_right Option.some.inj

theorem Sound.script {driver : ExternalComPortDriver} {w w' : Script} {e : Event Host} (h : Sound w)
    (hw : script psa driver w e = some w') : Sound w' := by
  obtain ⟨hadmits, rfl⟩ := script_eq_some hw
  obtain ⟨hstart, hpaths, hkey, hchain, hsigned, hsplit⟩ := h
  obtain ⟨c, ans⟩ := e
  cases c with
  | updateProgress progressMessage percentComplete =>
    obtain ⟨-, hload, hsign, hparse⟩ := hadmits
    refine ⟨fun h => (by cases h), hpaths, hkey, fun hstep => ?_, fun hstep => ?_, fun hstep => ?_⟩
    · rcases Nat.lt_or_ge w.step 2 with hlt | hge
      · exact hload (by simp only [Script.behind] at hstep; omega)
      · exact hchain hge
    · rcases Nat.lt_or_ge w.step 5 with hlt | hge
      · exact hsign (by simp only [Script.behind] at hstep; omega)
      · exact hsigned hge
    · rcases Nat.lt_or_ge w.step 6 with hlt | hge
      · exact hparse (by simp only [Script.behind] at hstep; omega)
      · exact hsplit hge
  | presentForm form =>
    obtain ⟨hstep, -, -⟩ := hadmits
    refine ⟨fun (h : w.step = 0) => ?_, fun _ => Option.some_ne_none _, hkey, hchain, hsigned, hsplit⟩
    cases hstep.symm.trans h
  | importPrivateKey path =>
    obtain ⟨-, -, hpath⟩ := hadmits
    obtain ⟨paths, hsome, -⟩ := Option.map_eq_some_iff.mp hpath
    refine ⟨hstart, fun _ => ?_, fun _ => Option.some_ne_none _, hchain, hsigned, hsplit⟩
    exact ne_of_eq_of_ne hsome (Option.some_ne_none _)
  | loadTrustChain path =>
    obtain ⟨-, hnone, -⟩ := hadmits
    exact ⟨hstart, hpaths, fun _ => hnone, fun _ => Option.some_ne_none _, hsigned, hsplit⟩
  | psaAdacSignToken => exact ⟨hstart, hpaths, hkey, hchain, fun _ => rfl, hsplit⟩
  | splitTlvStatic => exact ⟨hstart, hpaths, hkey, hchain, hsigned, fun _ => rfl⟩
  | _ => exact ⟨hstart, hpaths, hkey, hchain, hsigned, hsplit⟩

def librarySteps (psa : PsaAdac) (architecture : SDMDebugArchitecture) :
    Monitor Host (Conduct × Script) :=
  (portDriver architecture).conduct.prod (script psa (openPort architecture))

/-- As long as nothing failed, the inputs are what the library takes them for. -/
def Traced (c : Conduct × Script) (s : Inputs) : Prop :=
  Sound c.2 ∧ (c.1.failed = false → Knows c.2 s)

variable {architecture : SDMDebugArchitecture} {c : Conduct × Script} {call : HostCall}

theorem allowed_of_librarySteps (htraced : Traced c s)
    (hallowed : ∀ ans, (librarySteps psa architecture c ⟨call, ans⟩).isSome) :
    c.2.Admits psa (openPort architecture) call ∧ Sound c.2 ∧ Knows c.2 s := by
  obtain ⟨c', hc'⟩ := Option.isSome_iff_exists.mp (hallowed (scripted.answer call []).1)
  obtain ⟨hconduct, hscript⟩ := prod_eq_some.mp hc'
  obtain ⟨hfine, -, -⟩ := conduct_eq_some hconduct
  exact ⟨(script_eq_some hscript).1, htraced.1, htraced.2 hfine⟩

theorem traced_of_answer (htraced : Traced c s)
    (hallowed : ∀ ans, (librarySteps psa architecture c ⟨call, ans⟩).isSome) (ans : call.Answer)
    (hknows : hostFails ⟨call, ans⟩ = false → Knows (c.2.behind ⟨call, ans⟩) t) :
    ∃ c', librarySteps psa architecture c ⟨call, ans⟩ = some c' ∧ Traced c' t := by
  obtain ⟨c', hc'⟩ := Option.isSome_iff_exists.mp (hallowed ans)
  obtain ⟨hconduct, hscript⟩ := prod_eq_some.mp hc'
  obtain ⟨-, -, hc⟩ := conduct_eq_some hconduct
  refine ⟨c', hc', htraced.1.script hscript, fun hfine => ?_⟩
  rw [← (script_eq_some hscript).2]
  rw [hc] at hfine
  exact hknows hfine

section
variable {w : Script} {driver : ExternalComPortDriver}

theorem Knows.importPrivateKey {path : String} (h : Knows w s)
    (hadmits : w.Admits psa driver (.importPrivateKey path)) :
    s.Admits psa (.library (.importPrivateKey path)) := by
  obtain ⟨-, hnone, hpath⟩ := hadmits
  obtain ⟨paths, hsome, rfl⟩ := Option.map_eq_some_iff.mp hpath
  obtain ⟨keyFile, chainFile, hread, rfl⟩ := h.paths paths hsome
  refine ⟨h.key.trans hnone, by rw [hread]; rfl, ?_⟩
  rw [Inputs.paths, hread, userInputStringTrim_trim]
  rfl

theorem Knows.loadTrustChain {path : String} (h : Knows w s)
    (hadmits : w.Admits psa driver (.loadTrustChain path)) :
    s.Admits psa (.library (.loadTrustChain path)) := by
  obtain ⟨-, hloaded, hnone, hpath⟩ := hadmits
  obtain ⟨paths, hsome, rfl⟩ := Option.map_eq_some_iff.mp hpath
  obtain ⟨keyFile, chainFile, hread, rfl⟩ := h.paths paths hsome
  refine ⟨h.key.trans_ne hloaded, h.chain.trans hnone, ?_⟩
  rw [Inputs.paths, hread, userInputStringTrim_trim]
  rfl

theorem Knows.psaAdacSignToken {challenge : List UInt8} {signatureType : UInt8} {handle : UInt32}
    (h : Knows w s) (hsound : Sound w)
    (hadmits : w.Admits psa driver (.psaAdacSignToken challenge signatureType handle)) :
    s.Admits psa (.library (.psaAdacSignToken challenge signatureType handle)) := by
  obtain ⟨hstep, hnone, hsome, hlen⟩ := hadmits
  exact ⟨h.signed.trans hnone, h.chain.trans_ne (hsound.chain (by omega)), h.key.trans hsome, hlen⟩

theorem Knows.splitTlvStatic {chain : List UInt8} (h : Knows w s) (hsound : Sound w)
    (hadmits : w.Admits psa driver (.splitTlvStatic chain)) :
    s.Admits psa (.library (.splitTlvStatic chain)) := by
  obtain ⟨hstep, hnone, hsome⟩ := hadmits
  exact ⟨h.signed.trans (hsound.signed (by omega)), h.split.trans hnone, h.chain.trans hsome⟩

end

theorem Globals.uses_callbacks (g : Globals) (hplain : call.isPlain = false) :
    Uses [.link, .register, .port, .reset] (g.callbacks call) := by
  cases call with
  | registerAccess accesses =>
    exact ((g.uses_registerAccess _ _ _).mono (by decide)).bind fun _ => uses_pure
  | resetStart =>
    show Uses _ (g.resetStart .default)
    refine uses_ite uses_pure ?_
    exact (g.uses_systemResetStart.mono (by decide)).bind fun _ => uses_ite uses_pure uses_pure
  | resetEnd =>
    show Uses _ (g.resetFinish .default)
    refine uses_ite uses_pure ?_
    exact uses_seq rfl fun _ => uses_ite uses_pure uses_pure
  | _ => cases hplain

theorem script_behind_of_not_plain {w : Script} (hplain : call.isPlain = false) (ans : call.Answer) :
    w.behind ⟨call, ans⟩ = w := by
  cases call with
  | registerAccess => rfl
  | resetStart => rfl
  | resetEnd => rfl
  | _ => cases hplain

theorem Globals.inputs_callbacks (g : Globals) (call : HostCall) (c : Conduct × Script) (s : Inputs)
    (htraced : Traced c s)
    (hallowed : ∀ ans, (librarySteps psa architecture c ⟨call, ans⟩).isSome) :
    Abides (inputs psa)
      (fun ans t => ∃ c', librarySteps psa architecture c ⟨call, ans⟩ = some c' ∧ Traced c' t)
      (g.callbacks call) s := by
  obtain ⟨hadmits, hsound, hknows⟩ := allowed_of_librarySteps htraced hallowed
  have hprobe (hplain : call.isPlain = false) : Abides (inputs psa)
      (fun ans t => ∃ c', librarySteps psa architecture c ⟨call, ans⟩ = some c' ∧ Traced c' t)
      (g.callbacks call) s := by
    refine (inputs_of_uses (g.uses_callbacks hplain) (by decide) (by decide)).mono fun ans t ht => ?_
    refine traced_of_answer htraced hallowed ans fun _ => ?_
    rw [script_behind_of_not_plain hplain, ht]
    exact hknows
  have hlibrary (hcall : s.Admits psa (.library call))
      (hbehind : ∀ ans, Knows (c.2.behind ⟨call, ans⟩) (s.behind ⟨.library call, ans⟩)) :
      Abides (inputs psa)
        (fun ans t => ∃ c', librarySteps psa architecture c ⟨call, ans⟩ = some c' ∧ Traced c' t)
        (callRddi (.library call)) s :=
    inputs_library hcall fun ans => traced_of_answer htraced hallowed ans fun _ => hbehind ans
  have ⟨hlines, hpaths, hkey, hchain, hsigned, hsplit⟩ := hknows
  cases call with
  | registerAccess => exact hprobe rfl
  | resetStart => exact hprobe rfl
  | resetEnd => exact hprobe rfl
  | updateProgress =>
    exact traced_of_answer htraced hallowed () fun _ => ⟨hlines, hpaths, hkey, hchain, hsigned, hsplit⟩
  | presentForm form =>
    obtain ⟨-, hnone, rfl⟩ := hadmits
    refine (inputs_presentForm (hlines hnone)).mono fun out t ht => ?_
    refine traced_of_answer htraced hallowed out fun hfine => ?_
    obtain ⟨keyFile, chainFile, rfl, hfirst, hsecond⟩ := ht (not_not.mp (of_decide_eq_false hfine))
    refine ⟨fun h => (by cases h), fun paths hsome => ⟨keyFile, chainFile, rfl, ?_⟩, hkey, hchain,
      hsigned, hsplit⟩
    rw [← hfirst, ← hsecond]
    exact (Option.some.inj hsome).symm
  | importPrivateKey =>
    refine hlibrary (hknows.importPrivateKey hadmits) fun ans => ?_
    exact ⟨hlines, hpaths, rfl, hchain, hsigned, hsplit⟩
  | loadTrustChain =>
    refine hlibrary (hknows.loadTrustChain hadmits) fun ans => ?_
    exact ⟨hlines, hpaths, hkey, rfl, hsigned, hsplit⟩
  | psaAdacSignToken =>
    refine hlibrary (hknows.psaAdacSignToken hsound hadmits) fun ans => ?_
    exact ⟨hlines, hpaths, hkey, hchain, rfl, hsplit⟩
  | splitTlvStatic =>
    refine hlibrary (hknows.splitTlvStatic hsound hadmits) fun ans => ?_
    exact ⟨hlines, hpaths, hkey, hchain, hsigned, rfl⟩
  | psaAdacInit => exact hlibrary (hlines (hsound.start hadmits)) fun ans => hknows
  | uninitialised => exact hlibrary trivial fun ans => hknows
  | newImpl => exact hlibrary (hlines (hsound.start hadmits)) fun ans => hknows

/-! ### The session -/

variable {fuel : Nat}

theorem script_sdmOpen (handle : Option SDMHandle) :
    Abides (script psa (openPort architecture)) (fun _ t => t = {})
      (SecureDebug.sdmOpen fuel none handle (some (sdmOpenParams architecture))) {} := by
  have hmakes : Makes (SecureDebug.sdmOpen fuel none handle (some (sdmOpenParams architecture)))
      fun c => ∀ ans, script psa (openPort architecture) {} ⟨c, ans⟩ = some {} := by
    have hinit (driver : ExternalComPortDriver) (idResponseBuffer : List UInt8) (idBufferLength : Nat) :
        Makes (driver.eComPortInit fuel .system idResponseBuffer idBufferLength)
          fun c => ∀ ans, script psa (openPort architecture) {} ⟨c, ans⟩ = some {} := by
      intro l r hrun e he ans
      have htouches := touches_eComPortInit fuel .system idResponseBuffer idBufferLength l r hrun e he
      obtain ⟨c, answer⟩ := e
      cases c with
      | registerAccess accesses => exact if_pos (.inl rfl)
      | resetStart => rfl
      | resetEnd => rfl
      | _ => cases htouches
    have hopen : Makes (SecureDebugManagerImpl.new.sdmOpen fuel (some (sdmOpenParams architecture)))
        fun c => ∀ ans, script psa (openPort architecture) {} ⟨c, ans⟩ = some {} := by
      refine Makes.bind makes_pure fun callbacks => ?_
      refine Makes.bind (makes_perform fun _ => rfl) fun adacRes => ?_
      refine makes_ite makes_pure ?_
      refine Makes.bind (makes_perform fun _ => rfl) fun idResBuff => ?_
      refine (hinit _ _ _).bind fun out => ?_
      exact makes_ite makes_pure (makes_ite makes_pure makes_pure)
    refine Makes.bind (makes_perform fun _ => rfl) fun address => ?_
    refine hopen.bind fun out => makes_ite makes_pure ?_
    cases handle with
    | none => exact makes_halt
    | some _ => exact makes_pure
  exact abides_of_makes scripted [] hmakes fun c ans hc => hc ans

theorem script_authenticate {live : LiveImpl}
    (hlive : OpenedFor (sdmOpenParams architecture) live.impl) :
    Abides (script psa (openPort architecture)) (fun out t => out.1 = .success → t.step = 8)
      (SecureDebug.sdmAuthenticate psa fuel (some live) live.handle) {} := by
  refine abides_ite (fun hne => absurd rfl hne) fun _ => ?_
  have hreporting : Reporting (openPort architecture) live.impl :=
    ⟨hlive.isOpen.attached, by rw [hlive.params]; rfl⟩
  exact (script_sdmAuthenticate hlive.isOpen.isOpen hreporting).bind fun out t ht hres => ht.mp hres

theorem script_session (psa : PsaAdac) (fuel : Nat) (sdmHandle : SDMHandle)
    (architecture : SDMDebugArchitecture) :
    Abides (script psa (openPort architecture)) (fun code t => code = .success → t.step = 8)
      (session psa fuel sdmHandle architecture) {} := by
  refine ((script_sdmOpen (some sdmHandle)).and_returns (returns_sdmOpen_live _)).bind
    fun out s hs => ?_
  refine abides_ite (fun _ h => by cases h) fun hres => ?_
  obtain ⟨live, hlive, hhandle, hgSDMImpl⟩ := hs.2 (not_not.mp hres)
  rw [hhandle, hgSDMImpl, Option.getD_some, hs.1]
  refine (script_authenticate hlive).bind fun auth t ht => ?_
  have hbad : ExitCode.failure = .success → t.step = 8 := fun h => by cases h
  refine abides_ite (fun _ => abides_closeSession _ _ _ hbad) fun hres => ?_
  obtain ⟨resumed, hresumed⟩ := exists_sdmResumeBoot_eq auth.2 live.handle
  rw [hresumed, pure_bind]
  refine abides_ite (fun _ => abides_closeSession _ _ _ hbad) fun _ => ?_
  exact abides_closeSession _ _ _ fun _ => ht (not_not.mp hres)

/-! ### The program -/

theorem Globals.inputs_windDown (g : Globals) (code : ExitCode) (s : Inputs) :
    Abides (inputs psa) (fun out t => t = s ∧ out = code) (g.windDown code) s := by
  refine (inputs_of_uses (g.uses_windDown code) (by decide) (by decide)).and_returns ?_
  exact returns_true.bind fun _ _ => returns_true.bind fun _ _ => returns_pure rfl

theorem abides_inputs (psa : PsaAdac) (fuel : Nat) (sdmHandle : SDMHandle) (argv : List String) :
    Abides (inputs psa)
      (fun code t => code = .success → t.lines.length = 2 ∧ t.signed = true ∧ t.split = true)
      (main psa fuel sdmHandle argv) {} := by
  have hbad (t : Inputs) : ExitCode.failure = .success → t.lines.length = 2 ∧ t.signed = true ∧
      t.split = true := fun h => by cases h
  unfold main
  split
  · rename_i name address sdf dap com
    refine (inputs_of_uses (uses_rddiInitialize sdf address) (by decide) (by decide)).bind
      fun out s hs => ?_
    subst hs
    refine abides_ite (fun _ => hbad _) fun hres => ?_
    have hopen : Uses [.link] (callRddi (.debugOpenConn out.2 (atoi com))) := uses_call rfl
    refine (inputs_of_uses hopen (by decide) (by decide)).bind fun opened s hs => ?_
    subst hs
    refine abides_ite (fun _ => ?_) fun hres => ?_
    · refine (inputs_of_uses (Globals.uses_rddiFinalize _) (by decide) (by decide)).bind fun _ t _ => ?_
      exact hbad t
    split
    · rename_i architecture harch
      have htraced : Traced ({}, {}) {} := by
        refine ⟨⟨fun _ => rfl, fun h => absurd rfl h, fun h => absurd rfl h, ?_, ?_, ?_⟩,
          fun _ => ⟨fun _ => rfl, ?_, rfl, rfl, rfl, rfl⟩⟩
        · exact fun h => by cases h
        · exact fun h => by cases h
        · exact fun h => by cases h
        · exact fun paths h => by cases h
      have hlibrary := (abides_session psa fuel sdmHandle architecture).prod
        (script_session psa fuel sdmHandle architecture)
      refine (hlibrary.serve (Globals.inputs_callbacks ⟨atoi dap, atoi com, out.2⟩) htraced).bind
        fun code t ht => ?_
      obtain ⟨c, ⟨hgood, hstep⟩, hsound, hknows⟩ := ht
      refine (Globals.inputs_windDown _ _ _).mono fun out u hu hcode => ?_
      obtain ⟨rfl, rfl⟩ := hu
      obtain ⟨hlines, hpaths, hkey, hchain, hsigned, hsplit⟩ := hknows (hgood hcode).1
      have hstep := hstep hcode
      have hsome : c.2.paths ≠ none :=
        hsound.paths (hsound.key (hsound.chain (by omega)))
      obtain ⟨paths, hsome⟩ := Option.ne_none_iff_exists'.mp hsome
      obtain ⟨keyFile, chainFile, hread, -⟩ := hpaths paths hsome
      refine ⟨by rw [hread]; rfl, hsigned.trans (hsound.signed (by omega)), ?_⟩
      exact hsplit.trans (hsound.split (by omega))
    · refine (Globals.inputs_windDown _ _ _).mono fun out t ht => ?_
      rw [ht.2]
      exact hbad t
  · exact hbad _

/-- In every run of the example, up to any point at which it may be stopped: at most two lines are read
from the user, each into a whole buffer. The file that the first one names, trimmed, is opened once as
the key, and only when both were read; the one that the second names is opened once as the trust chain,
when there is a key. What is signed is a challenge of the right size, once, with that key, and what is
split is that chain, once, behind the signing. Nothing else is asked of psa-adac than to set up, and
no callback of the library gets to the environment. Success means that all of this was done. -/
theorem main_inputs {argv : List String} {fuel : Nat} {sdmHandle : SDMHandle} {l : List (Event Rddi)}
    {r : Except Stop ExitCode} (h : Run (main psa fuel sdmHandle argv) l r) :
    ∃ s, (inputs psa).follow {} l = some s ∧
      (r = .ok .success → s.lines.length = 2 ∧ s.signed = true ∧ s.split = true) := by
  obtain ⟨s, hfollow, hgood⟩ := (abides_inputs psa fuel sdmHandle argv).follow h
  exact ⟨s, hfollow, fun hr => hgood .success hr rfl⟩

theorem main_inputs_sample : ∃ s, (inputs .standard).follow {} sampleRun.2.1 = some s ∧
    s.lines.length = 2 ∧ s.signed = true ∧ s.split = true := by
  obtain ⟨s, hfollow, hgood⟩ := main_inputs run_sampleRun
  exact ⟨s, hfollow, hgood rfl⟩

end
end SecureDebug.Example
