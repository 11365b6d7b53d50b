import JavaLint.Config
import JavaLint.Text.Lowercase
import JavaLint.Text.Search

/-!
Settings of the service. Unlike the variables of an analysis, a variable that is set counts even
when it is empty.
-/
namespace JavaLint

structure Settings where
  host : String := "127.0.0.1"
  port : Int := 8000
  debug : Bool := false
  /-- The origins that may read answers; a star stands for all. -/
  origins : List String := ["*"]
  deriving DecidableEq, Repr

namespace Settings

def isTrue (text : String) : Bool :=
  ["true", "1", "yes"].contains (String.ofList (Text.lower (Text.trim text.toList)))

def listOf (text : String) : List String :=
  (((Text.splitAt ',' text.toList).map Text.trim).filter (!·.isEmpty)).map String.ofList

def ofEnvironment (environment : Environment) : Except Numeral.IntegerError Settings := do
  let base : Settings := {}
  let port ←
    match environment.lookup "CODE_QUALITY_API_PORT" with
    | some text => Numeral.readInteger text
    | none => pure base.port
  return {
    host := (environment.lookup "CODE_QUALITY_API_HOST").getD base.host
    port := port
    debug := ((environment.lookup "CODE_QUALITY_API_DEBUG").map isTrue).getD base.debug
    origins := ((environment.lookup "CODE_QUALITY_API_CORS_ORIGINS").map listOf).getD base.origins }

/-- The configuration of one request; its method length goes before the environment. -/
def analysisConfig (environment : Environment) (maxMethodLines : Option Int) :
    Except Numeral.IntegerError Config :=
  Config.ofEnvironment environment { maxMethodLines := maxMethodLines }

def document (settings : Settings) : Json :=
  .obj [
    ("host", .str settings.host),
    ("port", .int settings.port),
    ("debug", .bool settings.debug),
    ("cors_origins", .strings settings.origins)]

end Settings

end JavaLint
