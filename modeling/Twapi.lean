import Twapi.Lifo.Release
import Twapi.Lifo.Restore
import Twapi.Lifo.Validate
import Twapi.NamedPipe.Bytes
import Twapi.NamedPipe.Completion
import Twapi.Async.Release
import Twapi.ThreadPool.Ids
import Twapi.ThreadPool.Refs
import Twapi.Tls.Unread
import Twapi.Tls.Stream
import Twapi.Tls.Socketless
import Twapi.Services.Report
import Twapi.Services.Control
import Twapi.Etw.Types
import Twapi.Etw.Alone
import Twapi.ComServer.Lifetime
import Twapi.ComProxy.Registry
import Twapi.Prototype.History
import Twapi.Cert.Faithful
import Twapi.Request.RoundTrip
import Twapi.Handles.Balance
import Twapi.Password.Stack
import Twapi.Privileges.Restore
import Twapi.ProcessInfo.WellFormed
import Twapi.EventText.Independent
import Twapi.Resolve.Served
import Twapi.RecordArray.Ownership
import Twapi.RecordArray.TwoCalls
import Twapi.CStruct.RoundTrip
import Twapi.InterpContext.Finalizers
import Twapi.Pointers.Refines
import Twapi.DirMonitor.Release
import Twapi.Security.Descriptor
import Twapi.AccessRights.RoundTrip
import Twapi.Metoo.Runs
import Twapi.NamedPipe.Input
import Twapi.Com.Result
import Twapi.Trap.Unmatched
import Twapi.Resource.Version
import Twapi.Resource.Strings
import Twapi.Services.Become
import Twapi.Etw.Session
import Twapi.NamedPipe.Create
import Twapi.NamedPipe.Check
import Twapi.Etw.Decode
import Twapi.Base.Guid
import Twapi.Base.RegistryValue
import Twapi.Base.GetArgs
import Twapi.Com.EnumNext
import Twapi.Crypto.Pkcs7
import Twapi.Com.Binding
import Twapi.Crypto.Chunks
import Twapi.Com.Iterate
import Twapi.Com.NamedArgs
import Twapi.Parseargs.Failure
import Twapi.Sspi.Encrypt
import Twapi.Sspi.Step
import Twapi.Cert.Iterate
import Twapi.Crypto.Parse
import Twapi.Crypto.KeyBlob
import Twapi.MsTask.Configure
import Twapi.Input.Meaning
import Twapi.Parseargs.Match
import Twapi.Base.Pidl
import Twapi.DirMonitor.Notify
import Twapi.CStruct.References
import Twapi.Base.MultiSz
import Twapi.SafeArray.Agreement
import Twapi.SafeArray.RoundTrip
import Twapi.Crypto.Cleanup
import Twapi.Base.Enum
import Twapi.Base.SystemTime
import Twapi.Base.Ffi
import Twapi.Base.ZList
import Twapi.Password.Padding
import Twapi.Metoo.Resolve
