import SecureDebug.Interaction.Stopping
import SecureDebug.Manager.Conduct
import SecureDebug.Manager.Overrun

/-! How the library can fail to return. A session that was opened has the callbacks that it needs, so
that no null pointer is followed and no empty function called once it is open. -/

namespace SecureDebug
open Interaction Program

namespace ExternalComPortDriver
variable {this : ExternalComPortDriver} {α β : Type} {fuel : Nat}

end ExternalComPortDriver

namespace SecureDebugManagerImpl
variable {this : SecureDebugManagerImpl} {driver : ExternalComPortDriver} {psa : PsaAdac} {fuel : Nat}

/-- An open object that can report its progress. -/
structure Equipped (driver : ExternalComPortDriver) (this : SecureDebugManagerImpl) : Prop where
  isOpen : this.IsOpen driver
  callbacks : this.mSdmOpenParams.callbacks ≠ none

theorem Equipped.keeps {this' : SecureDebugManagerImpl} (h : Equipped driver this)
    (hkeeps : this.Keeps this') : Equipped driver this' := by
  obtain ⟨ho, hcb⟩ := h
  exact ⟨hkeeps.isOpen_of ho, by rwa [hkeeps.params]⟩

end SecureDebugManagerImpl

/-! ### The API -/

section
open SecureDebugManagerImpl
variable {psa : PsaAdac} {fuel : Nat} {gSDMImpl gSDMImpl' : Option LiveImpl} {call : ApiCall}
  {l : Trace}

end
end SecureDebug
