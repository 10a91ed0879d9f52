import SecureDebug.Driver.Codes
import SecureDebug.Driver.Dropped
import SecureDebug.Driver.Retries
import SecureDebug.Driver.Release
import SecureDebug.Driver.Timing
import SecureDebug.Reuse
import SecureDebug.Manager.Leftover
import SecureDebug.Manager.Overrun
import SecureDebug.Manager.Pairing
import SecureDebug.Example.Inputs
import SecureDebug.Example.Links
import SecureDebug.Example.Wire
import SecureDebug.Crypto
import SecureDebug.Rams
