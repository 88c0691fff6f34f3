import GraphBench.Factory
import GraphBench.Json.Binary64
import GraphBench.Json.Printer
import GraphBench.Json.Reader
import GraphBench.OperationOrder
import GraphBench.Text.Glyph

/-!
The configuration of a workload, and its JSON form. Settings that a file leaves out have their standard
values; instead of an object of settings there may be an array of them in the order of their declaration.
-/

namespace GraphBench

/-- Every setting of a workload. Without a seed the recorded values differ from one recording to the next. -/
structure Config where
  testParameterCount : UInt32
  productsPerOrder : UInt32
  nodeByteSize : UInt64
  dataSetDirectory : Path
  maxScanLength : UInt64
  operations : OperationMix
  seed : Option UInt64

/-- What the system draws for the streams of a workload without a seed: a generator for each of them, independent of the
others. -/
structure Entropy where
  payloads : Generator
  choices : Generator
  operations : Generator

def Entropy.zero : Entropy :=
  ⟨.ofKey .zero, .ofKey .zero, .ofKey .zero⟩

namespace OperationMix

def toJson (mix : OperationMix) : Json :=
  .object ((["read", "update", "insert", "scan", "readModifyWrite"].map fun name => name.toList.map some).zip
    [Json.ofFloat mix.read, Json.ofFloat mix.update, Json.ofFloat mix.insert, Json.ofFloat mix.scan,
      Json.ofFloat mix.readModifyWrite])

end OperationMix

/-- Settings as a JSON value holds them: by name, or in the order of their declaration. -/
inductive Settings where
  | named (members : List (String × Json))
  | listed (items : List Json)

namespace Settings

def ofJson? : Json → Option Settings
  | .array items => some (.listed items)
  | json => json.members?.map .named

/-- The setting with the given name and place. If it is left out it has the value `standard`; by name it
may stand only once. -/
def get? {α : Type} (settings : Settings) (name : String) (place : Nat) (standard : α)
    (read : Json → Option α) : Option α :=
  match settings with
  | .listed items =>
    match items[place]? with
    | none => some standard
    | some json => read json
  | .named members =>
    match Json.valuesOf name members with
    | [] => some standard
    | [json] => read json
    | _ => none

/-- Whether no more items are listed than there are settings. -/
def fits (settings : Settings) (count : Nat) : Bool :=
  match settings with
  | .listed items => items.length ≤ count
  | .named _ => true

end Settings

def OperationMix.ofJson? (json : Json) : Option OperationMix := do
  let settings ← Settings.ofJson? json
  if !settings.fits 5 then none
  let standard := OperationMix.standard
  let read ← settings.get? "read" 0 standard.read Json.float?
  let update ← settings.get? "update" 1 standard.update Json.float?
  let insert ← settings.get? "insert" 2 standard.insert Json.float?
  let scan ← settings.get? "scan" 3 standard.scan Json.float?
  let readModifyWrite ← settings.get? "readModifyWrite" 4 standard.readModifyWrite Json.float?
  return ⟨read, update, insert, scan, readModifyWrite⟩

namespace Config

def standard : Config :=
  ⟨128, 10, 500, "./benchmarkingData/", 1000, .standard, none⟩

/-- Refuses what the generators cannot work with. -/
def validate (config : Config) : Except ConfigFault Unit :=
  if config.productsPerOrder = 0 then .error .noProducts else config.operations.validate

def shape (config : Config) : Shape :=
  ⟨config.testParameterCount.toNat, config.productsPerOrder.toNat, config.nodeByteSize.toNat⟩

/-- One of the random streams of a workload. A seed selects streams that are kept apart by their numbers; without a
seed the stream is `drawn`. -/
def stream (config : Config) (number : UInt64) (drawn : Generator) : Generator :=
  match config.seed with
  | some seed => .ofSeed (seed ^^^ (number * 0x9E3779B97F4A7C15))
  | none => drawn

/-- A seed settles the streams of a workload. -/
theorem stream_of_seed {config : Config} {seed : UInt64} (h : config.seed = some seed) (number : UInt64)
    (drawn other : Generator) : config.stream number drawn = config.stream number other := by
  rw [stream, stream, h]

def payloadStream (config : Config) (entropy : Entropy) : Generator :=
  config.stream 0 entropy.payloads

def choiceStream (config : Config) (entropy : Entropy) : Generator :=
  config.stream 1 entropy.choices

def operationStream (config : Config) (entropy : Entropy) : Generator :=
  config.stream 2 entropy.operations

def seedToJson : Option UInt64 → Json
  | none => .null
  | some seed => .ofNat seed.toNat

def seedOfJson? : Json → Option (Option UInt64)
  | .null => some none
  | json => (json.natBelow? UInt64.size).map fun n => some (UInt64.ofNat n)

def toJson (config : Config) : Json :=
  .object
    ((["testParameterCount", "productsPerOrder", "nodeByteSize", "dataSetDirectory", "maxScanLength",
        "operations", "seed"].map fun name => name.toList.map some).zip
      [Json.ofNat config.testParameterCount.toNat, Json.ofNat config.productsPerOrder.toNat,
        Json.ofNat config.nodeByteSize.toNat, Json.ofString config.dataSetDirectory,
        Json.ofNat config.maxScanLength.toNat, config.operations.toJson, seedToJson config.seed])

def ofJson? (json : Json) : Option Config := do
  let settings ← Settings.ofJson? json
  if !settings.fits 7 then none
  let word32 (json : Json) : Option UInt32 := (json.natBelow? UInt32.size).map UInt32.ofNat
  let word64 (json : Json) : Option UInt64 := (json.natBelow? UInt64.size).map UInt64.ofNat
  let testParameterCount ← settings.get? "testParameterCount" 0 standard.testParameterCount word32
  let productsPerOrder ← settings.get? "productsPerOrder" 1 standard.productsPerOrder word32
  let nodeByteSize ← settings.get? "nodeByteSize" 2 standard.nodeByteSize word64
  let dataSetDirectory ← settings.get? "dataSetDirectory" 3 standard.dataSetDirectory Json.text?
  let maxScanLength ← settings.get? "maxScanLength" 4 standard.maxScanLength word64
  let operations ← settings.get? "operations" 5 standard.operations OperationMix.ofJson?
  let seed ← settings.get? "seed" 6 standard.seed seedOfJson?
  return ⟨testParameterCount, productsPerOrder, nodeByteSize, dataSetDirectory, maxScanLength, operations,
    seed⟩

def text (config : Config) : String :=
  String.ofList (config.toJson.spread 0)

def load (path : Path) : OnDisk Config := do
  match (← get).read? path with
  | none => throw (.unprepared path)
  | some bytes =>
    match (Json.parse? (glyphs bytes)).bind ofJson? with
    | none => throw .badConfigFile
    | some config =>
      match config.validate with
      | .ok () => return config
      | .error fault => throw (.invalidConfig fault)

/-- Writes a configuration file, which need not be valid. -/
def save (config : Config) (path : Path) : OnDisk Unit := do
  match (← get).write? path config.text.toUTF8 with
  | none => throw (.unreadable path)
  | some disk => set disk

end Config

end GraphBench
