import ImpactGraph.Descriptor
import ImpactGraph.Resolve.Resolver

/-!
# What a scan is told

A `ScanConfig` holds everything that a scan needs to know, with defaults for all but the entry.
`fault?` finds the first value that a scan cannot start with.
-/

set_option autoImplicit false

namespace ImpactGraph

/-- Everything that a scan needs to know. -/
structure ScanConfig where
  /-- The root of the repository; a relative one is taken from the working directory. -/
  root : Path
  /-- The file the scan starts from, taken from the root. -/
  entry : Path
  /-- The names of external packages, which are not followed. -/
  external : List String
  /-- Directories by alias; a relative one is taken from the root. -/
  aliases : SortedMap String Path
  /-- The extensions that are tried, in order, where a specifier does not name a file. -/
  extensions : List String
  /-- The extensions of files that are parsed and walked; all others are leaves. -/
  scriptExtensions : List String
  /-- The text that picks the descriptor comment. -/
  marker : String
  /-- The most files that are loaded and parsed at a time. -/
  maxConcurrency : Nat
  /-- Whether calls of `import` are followed. -/
  followDynamic : Bool
  /-- Whether exports from other modules are followed. -/
  followReExports : Bool
  deriving Inhabited

namespace ScanConfig

/-- The extensions that are tried when none are configured. -/
def defaultExtensions : List String := ["js", "jsx", "ts", "tsx", "vue", "mjs", "cjs", "json"]

/-- The extensions of scripts when none are configured. -/
def defaultScriptExtensions : List String :=
  ["js", "jsx", "mjs", "cjs", "ts", "tsx", "mts", "cts", "vue"]

/-- The most files at a time when no number is configured. -/
def defaultMaxConcurrency : Nat := 64

/-- The configuration in which nothing is set. -/
def default : ScanConfig where
  root := .ofText "."
  entry := .ofText ""
  external := []
  aliases := ∅
  extensions := defaultExtensions
  scriptExtensions := defaultScriptExtensions
  marker := Descriptor.defaultMarker
  maxConcurrency := defaultMaxConcurrency
  followDynamic := true
  followReExports := false

/-- Why a scan cannot start. -/
inductive Fault
  /-- There is no entry. -/
  | noEntry
  /-- No file may be loaded. -/
  | noConcurrency
  /-- The marker is empty. -/
  | noMarker
  /-- An extension is empty or starts with a dot. -/
  | badExtension (extension : String)
  deriving DecidableEq, Repr

/-- The text of a fault. -/
def Fault.message : Fault → String
  | .noEntry => "an entry file is required"
  | .noConcurrency => "max_concurrency must be at least 1"
  | .noMarker => "descriptor marker must not be empty"
  | .badExtension extension =>
    s!"extension '{extension}' must be non-empty and written without a leading dot"

/-- Whether an extension is empty or starts with a dot. -/
def badExtension (extension : String) : Bool := extension.isEmpty || extension.startsWith "."

/-- The first value that a scan cannot start with. -/
def fault? (config : ScanConfig) : Option Fault :=
  if config.entry.text.isEmpty then some .noEntry
  else if config.maxConcurrency = 0 then some .noConcurrency
  else if config.marker.isEmpty then some .noMarker
  else ((config.extensions ++ config.scriptExtensions).find? badExtension).map .badExtension

/-- The resolver of a scan from this root. -/
def resolver (config : ScanConfig) (root : Path) : Resolver where
  aliases := .ofConfig root config.aliases.entries
  external := config.external
  extensions := config.extensions

end ScanConfig
end ImpactGraph
