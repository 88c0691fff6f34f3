import GraphBench.Config
import GraphBench.Proofs.Dataset.Modes
import GraphBench.Proofs.Disk.Replaced
import GraphBench.Proofs.Json.Spread
import GraphBench.Proofs.Record.RoundTrip

/-!
Configuration files. What is saved at a path is read from there again, and every setting is found under its name, so
that a configuration comes back unless the text of a weight is read as another number.
-/

namespace GraphBench

section
variable {disk left : Disk} {config : Config} {path : Path}

/-- Loading reads a file and nothing else, and the settings that it returns are valid. -/
theorem Config.load_ok (h : load path disk = .ok config left) :
    left = disk ∧ ∃ bytes, disk.read? path = some bytes ∧
      (Json.parse? (glyphs bytes)).bind ofJson? = some config ∧ config.validate = .ok () := by
  have hget : (get : OnDisk Disk) disk = .ok disk disk := rfl
  rw [load, run_bind hget] at h
  cases hread : disk.read? path with
  | none =>
    rw [hread] at h
    cases h
  | some bytes =>
    rw [hread] at h
    simp only at h
    cases hparse : (Json.parse? (glyphs bytes)).bind ofJson? with
    | none =>
      rw [hparse] at h
      cases h
    | some settings =>
      rw [hparse] at h
      cases hvalid : settings.validate with
      | error fault =>
        simp only [hvalid] at h
        cases h
      | ok =>
        simp only [hvalid] at h
        cases h
        exact ⟨rfl, bytes, rfl, hparse, hvalid⟩

theorem Config.load_of_read? {bytes : ByteArray} (hread : disk.read? path = some bytes)
    (hparse : (Json.parse? (glyphs bytes)).bind ofJson? = some config) (hvalid : config.validate = .ok ()) :
    load path disk = .ok config disk := by
  have hget : (get : OnDisk Disk) disk = .ok disk disk := rfl
  rw [load, run_bind hget, hread]
  simp only [hparse, hvalid]
  rfl

/-- A file that holds a configuration is not empty, so that its bytes are on the disk. -/
theorem Config.file_of_load (h : load path disk = .ok config left) :
    ∃ location number, disk.locate? path = some location ∧ disk.entryAt? location = some (.file number) ∧
      number < disk.contents.size := by
  obtain ⟨-, bytes, hread, hparse, -⟩ := load_ok h
  rw [Disk.read?] at hread
  split at hread
  · rename_i number hentry
    cases hread
    obtain ⟨location, hlocate, hfile⟩ := Option.bind_eq_some_iff.1 hentry
    refine ⟨location, number, hlocate, hfile, Nat.lt_of_not_le fun hsize => ?_⟩
    have hempty : disk.bytes number = .empty := by
      rw [Disk.bytes, Array.getD_eq_getD_getElem?, Array.getElem?_eq_none hsize, Option.getD_none]
    have hnone : (Json.parse? (glyphs .empty)).bind ofJson? = none := rfl
    rw [hempty, hnone] at hparse
    cases hparse
  · cases hread

end

namespace Disk

variable {disk : Disk} {path : Path}

/-- A path that leads to a file of the disk, or to a place in a directory where there is nothing yet. -/
def IsWritable (disk : Disk) (path : Path) : Prop :=
  ∃ location, disk.locate? path = some location ∧
    (disk.entryAt? location = none ∨
      ∃ number, disk.entryAt? location = some (.file number) ∧ number < disk.contents.size)

/-- A path still leads to the file whose bytes are replaced. -/
theorem read?_setBytes {location : Location} {number : Nat} (hlocate : disk.locate? path = some location)
    (hentry : disk.entryAt? location = some (.file number)) (hsize : number < disk.contents.size)
    (content : ByteArray) : (disk.setBytes number content).read? path = some content := by
  have hlocate' : (disk.setBytes number content).locate? path = some location :=
    (keepsFolders_setBytes disk number content).locate? hlocate
  have hentry' : (disk.setBytes number content).entryAt? location = some (.file number) := hentry
  simp only [read?, entry?, hlocate', Option.bind_some, hentry', bytes_setBytes disk content number hsize, ↓reduceIte]

/-- What is written to a path is read from it. -/
theorem IsWritable.write? (h : disk.IsWritable path) (content : ByteArray) :
    ∃ written, disk.write? path content = some written ∧ written.read? path = some content := by
  obtain ⟨location, hlocate, hfree | ⟨number, hfile, hsize⟩⟩ := h
  · -- the file is made first
    have hcreate : disk.create? path = some (disk.contents.size, disk.addFile location) := by
      simp only [create?, hlocate, hfree, addFile]
    refine ⟨(disk.addFile location).setBytes disk.contents.size content, ?_, ?_⟩
    · simp only [Disk.write?, entry?, hlocate, Option.bind_some, hfree, hcreate, Option.map_some]
    · have hentry : (disk.addFile location).entryAt? location = some (.file disk.contents.size) := by
        simp
      have hsize : disk.contents.size < (disk.addFile location).contents.size := by
        rw [addFile, Array.size_push]
        exact Nat.lt_succ_self _
      exact read?_setBytes ((keepsFolders_addFile hfree).locate? hlocate) hentry hsize content
  · refine ⟨disk.setBytes number content, ?_, read?_setBytes hlocate hfile hsize content⟩
    simp only [Disk.write?, entry?, hlocate, Option.bind_some, hfile]

end Disk

namespace Json

theorem valuesOf_cons (name : String) (member : String × Json) (rest : List (String × Json)) :
    valuesOf name (member :: rest) =
      if member.1 = name then member.2 :: valuesOf name rest else valuesOf name rest := by
  rw [valuesOf, List.filterMap_cons]
  by_cases h : member.1 = name
  · simp only [h, ↓reduceIte, valuesOf]
  · simp only [h, ↓reduceIte, valuesOf]

/-- Under different names there is one value each. -/
theorem valuesOf_of_mem {members : List (String × Json)} (hnames : (members.map Prod.fst).Nodup) {name : String}
    {value : Json} (h : (name, value) ∈ members) : valuesOf name members = [value] := by
  induction members with
  | nil => exact absurd h List.not_mem_nil
  | cons member rest ih =>
    rw [List.map_cons, List.nodup_cons] at hnames
    rcases List.mem_cons.1 h with rfl | h
    · -- no later member has the name
      have hrest : valuesOf name rest = [] := by
        rw [valuesOf, List.filterMap_eq_nil_iff]
        intro other hother
        have hother : other.1 ∈ rest.map Prod.fst := List.mem_map_of_mem hother
        have hne : other.1 ≠ name := fun heq => hnames.1 (heq ▸ hother)
        exact if_neg hne
      rw [valuesOf_cons, if_pos rfl, hrest]
    · have hne : member.1 ≠ name := fun heq => hnames.1 (heq ▸ List.mem_map_of_mem h)
      rw [valuesOf_cons, if_neg hne, ih hnames.2 h]

theorem natBelow?_ofNat {bound n : Nat} (h : n < bound) : (ofNat n).natBelow? bound = some n := by
  rw [ofNat, natBelow?, if_pos h]

/-- The text of a float is that of a number, and reading this number gives the same float. -/
def KeepsFloat (x : Float) : Prop :=
  ∃ n, ofChars? ((ofFloat x).spread 0) = some (.number n) ∧ n.toFloat? = some x

theorem keepsFloat_iff (x : Float) : KeepsFloat x ↔ (ofFloat x).float? = some x := by
  rw [KeepsFloat, ofChars?_spread]
  constructor
  · rintro ⟨n, hn, hx⟩
    rw [Option.some.inj hn]
    exact hx
  · intro h
    cases hjson : ofFloat x with
    | number n =>
      rw [hjson] at h
      exact ⟨n, rfl, h⟩
    | null | bool | string | array | object =>
      rw [hjson] at h
      cases h

-- an eleventh is written with sixteen digits, and these are read as its upper neighbour
example : (ofFloat (1.0 / 11.0)).float?.map Float.toBits = some ((1.0 / 11.0 : Float).toBits + 1) := by decide +kernel

end Json

namespace Settings

variable {names : List String} {values : List Json}

theorem ofJson?_zip (names : List String) (values : List Json) :
    ofJson? (.object ((names.map fun name => name.toList.map some).zip values)) = some (.named (names.zip values)) := by
  have hmembers : ((names.map fun name => name.toList.map some).zip values).mapM
      (fun (name, value) => (Json.textOf? name).map fun name => (name, value)) = some (names.zip values) := by
    induction names generalizing values with
    | nil => rfl
    | cons name names ih =>
      cases values with
      | nil => rfl
      | cons value values =>
        simp only [List.map_cons, List.zip_cons_cons, List.mapM_cons, Json.textOf?_map_some, String.ofList_toList,
          Option.map_some, ih, Option.bind_eq_bind, Option.bind_some, Option.pure_def]
  change (Json.members? _).map Settings.named = _
  rw [Json.members?, hmembers, Option.map_some]

/-- A setting is read from what is written under its name. -/
theorem get?_zip (hnames : names.Nodup) (hlength : names.length = values.length) {place : Nat} {name : String}
    {value : Json} (hname : names[place]? = some name) (hvalue : values[place]? = some value) {α : Type} (standard : α)
    (read : Json → Option α) : (Settings.named (names.zip values)).get? name place standard read = read value := by
  have hmem : (name, value) ∈ names.zip values := by
    apply List.mem_of_getElem? (i := place)
    rw [List.getElem?_zip_eq_some]
    exact ⟨hname, hvalue⟩
  have hfirst : ((names.zip values).map Prod.fst).Nodup := by
    rw [List.map_fst_zip (Nat.le_of_eq hlength)]
    exact hnames
  simp only [get?, Json.valuesOf_of_mem hfirst hmem]

end Settings

namespace OperationMix

/-- A mix is read weight by weight. -/
theorem ofJson?_toJson (mix : OperationMix) : ofJson? mix.toJson = (do
    let read ← (Json.ofFloat mix.read).float?
    let update ← (Json.ofFloat mix.update).float?
    let insert ← (Json.ofFloat mix.insert).float?
    let scan ← (Json.ofFloat mix.scan).float?
    let readModifyWrite ← (Json.ofFloat mix.readModifyWrite).float?
    return ⟨read, update, insert, scan, readModifyWrite⟩) := by
  let names := ["read", "update", "insert", "scan", "readModifyWrite"]
  let values := [Json.ofFloat mix.read, Json.ofFloat mix.update, Json.ofFloat mix.insert, Json.ofFloat mix.scan,
    Json.ofFloat mix.readModifyWrite]
  have hget (place : Nat) (name : String) (value : Json) (hname : names[place]? = some name)
      (hvalue : values[place]? = some value) (standard : Float) :
      (Settings.named (names.zip values)).get? name place standard Json.float? = value.float? :=
    Settings.get?_zip (by decide) rfl hname hvalue standard Json.float?
  have hread := hget 0 "read" (Json.ofFloat mix.read) rfl rfl standard.read
  have hupdate := hget 1 "update" (Json.ofFloat mix.update) rfl rfl standard.update
  have hinsert := hget 2 "insert" (Json.ofFloat mix.insert) rfl rfl standard.insert
  have hscan := hget 3 "scan" (Json.ofFloat mix.scan) rfl rfl standard.scan
  have hwrite := hget 4 "readModifyWrite" (Json.ofFloat mix.readModifyWrite) rfl rfl standard.readModifyWrite
  have hsettings : Settings.ofJson? mix.toJson = some (.named (names.zip values)) :=
    Settings.ofJson?_zip names values
  rw [ofJson?, hsettings, Option.bind_eq_bind, Option.bind_some]
  simp only [Settings.fits, Bool.not_true, Bool.false_eq_true, ↓reduceIte, hread, hupdate, hinsert, hscan, hwrite]

/-- A mix comes back exactly if each of its weights does. -/
theorem ofJson?_toJson_eq_some_iff (mix : OperationMix) :
    ofJson? mix.toJson = some mix ↔ ∀ op, Json.KeepsFloat (mix.weight op) := by
  simp only [Json.keepsFloat_iff, ofJson?_toJson]
  constructor
  · intro h
    simp only [Option.bind_eq_bind, Option.bind_eq_some_iff, Option.pure_def, Option.some.injEq] at h
    obtain ⟨read, hread, update, hupdate, insert, hinsert, scan, hscan, readModifyWrite, hwrite, rfl⟩ := h
    intro op
    cases op <;> assumption
  · intro h
    have hread := h .read
    have hupdate := h .update
    have hinsert := h .insert
    have hscan := h .scan
    have hwrite := h .readModifyWrite
    simp only [weight] at hread hupdate hinsert hscan hwrite
    simp only [hread, hupdate, hinsert, hscan, hwrite, Option.bind_eq_bind, Option.bind_some, Option.pure_def]

end OperationMix

theorem glyphs_toUTF8 (text : String) : glyphs text.toUTF8 = text.toList.map some := by
  have htext : String.fromUTF8? text.toUTF8 = some text := fromUTF8?_toByteArray text
  rw [glyphs, htext]

namespace Config

theorem seedOfJson?_seedToJson (seed : Option UInt64) : seedOfJson? (seedToJson seed) = some seed := by
  cases seed with
  | none => rfl
  | some seed =>
    change ((Json.ofNat seed.toNat).natBelow? UInt64.size).map (fun n => some (UInt64.ofNat n)) = _
    rw [Json.natBelow?_ofNat seed.toNat_lt_size, Option.map_some, UInt64.ofNat_toNat]

/-- All settings but the operations come back whatever they are. -/
theorem ofJson?_toJson (config : Config) : ofJson? config.toJson =
    (OperationMix.ofJson? config.operations.toJson).map fun mix => { config with operations := mix } := by
  let names := ["testParameterCount", "productsPerOrder", "nodeByteSize", "dataSetDirectory", "maxScanLength",
    "operations", "seed"]
  let values := [Json.ofNat config.testParameterCount.toNat, Json.ofNat config.productsPerOrder.toNat,
    Json.ofNat config.nodeByteSize.toNat, Json.ofString config.dataSetDirectory,
    Json.ofNat config.maxScanLength.toNat, config.operations.toJson, seedToJson config.seed]
  have hget (place : Nat) (name : String) (value : Json) (hname : names[place]? = some name)
      (hvalue : values[place]? = some value) {α : Type} (standard : α) (read : Json → Option α) :
      (Settings.named (names.zip values)).get? name place standard read = read value :=
    Settings.get?_zip (by decide) rfl hname hvalue standard read
  have hword32 (place : Nat) (name : String) (n : UInt32) (hname : names[place]? = some name)
      (hvalue : values[place]? = some (Json.ofNat n.toNat)) (standard : UInt32) :
      (Settings.named (names.zip values)).get? name place standard
        (fun json => (json.natBelow? UInt32.size).map UInt32.ofNat) = some n := by
    rw [hget place name _ hname hvalue, Json.natBelow?_ofNat n.toNat_lt_size, Option.map_some, UInt32.ofNat_toNat]
  have hword64 (place : Nat) (name : String) (n : UInt64) (hname : names[place]? = some name)
      (hvalue : values[place]? = some (Json.ofNat n.toNat)) (standard : UInt64) :
      (Settings.named (names.zip values)).get? name place standard
        (fun json => (json.natBelow? UInt64.size).map UInt64.ofNat) = some n := by
    rw [hget place name _ hname hvalue, Json.natBelow?_ofNat n.toNat_lt_size, Option.map_some, UInt64.ofNat_toNat]
  have htests := hword32 0 "testParameterCount" config.testParameterCount rfl rfl standard.testParameterCount
  have hproducts := hword32 1 "productsPerOrder" config.productsPerOrder rfl rfl standard.productsPerOrder
  have hbytes := hword64 2 "nodeByteSize" config.nodeByteSize rfl rfl standard.nodeByteSize
  have hdirectory := hget 3 "dataSetDirectory" (Json.ofString config.dataSetDirectory) rfl rfl
    standard.dataSetDirectory Json.text?
  have hlength := hword64 4 "maxScanLength" config.maxScanLength rfl rfl standard.maxScanLength
  have hoperations := hget 5 "operations" config.operations.toJson rfl rfl standard.operations OperationMix.ofJson?
  have hseed := hget 6 "seed" (seedToJson config.seed) rfl rfl standard.seed seedOfJson?
  rw [Json.text?_ofString] at hdirectory
  rw [seedOfJson?_seedToJson] at hseed
  have hsettings : Settings.ofJson? config.toJson = some (.named (names.zip values)) :=
    Settings.ofJson?_zip names values
  rw [ofJson?, hsettings, Option.bind_eq_bind, Option.bind_some]
  simp only [Settings.fits, Bool.not_true, Bool.false_eq_true, ↓reduceIte, htests, hproducts, hbytes, hdirectory,
    hlength, hoperations, hseed, Option.bind_eq_bind, Option.bind_some, Option.pure_def]
  exact (Option.map_eq_bind ..).symm

theorem parse?_text (config : Config) : Json.parse? (glyphs config.text.toUTF8) = some config.toJson := by
  rw [glyphs_toUTF8, text, String.toList_ofList]
  exact Json.ofChars?_spread config.toJson

/-- A configuration is read from its text exactly if each of its weights is. -/
theorem parse?_text_bind_ofJson?_iff (config : Config) :
    (Json.parse? (glyphs config.text.toUTF8)).bind ofJson? = some config ↔
      ∀ op, Json.KeepsFloat (config.operations.weight op) := by
  rw [parse?_text, Option.bind_some, ofJson?_toJson, ← OperationMix.ofJson?_toJson_eq_some_iff,
    Option.map_eq_some_iff]
  constructor
  · rintro ⟨mix, hmix, hconfig⟩
    rw [hmix, ← congrArg operations hconfig]
  · intro h
    exact ⟨config.operations, h, rfl⟩

end Config

/-- A valid configuration is saved at every writable path, and loading this file gives it back, with all settings as
they were, exactly if the text of each of its five weights is a number that is read as the same float. -/
theorem saved_config_loads_iff {config : Config} (hvalid : config.validate = .ok ()) {disk : Disk} {path : Path}
    (hpath : disk.IsWritable path) :
    ∃ saved, config.save path disk = .ok () saved ∧
      (Config.load path saved = .ok config saved ↔ ∀ op, Json.KeepsFloat (config.operations.weight op)) := by
  obtain ⟨saved, hwrite, hread⟩ := hpath.write? config.text.toUTF8
  have hsave : config.save path disk = .ok () saved := by
    have hget : (get : OnDisk Disk) disk = .ok disk disk := rfl
    rw [Config.save, run_bind hget, hwrite]
    rfl
  refine ⟨saved, hsave, ?_⟩
  -- what is loaded is decided by the text alone, since the configuration is known to be valid
  rw [← Config.parse?_text_bind_ofJson?_iff]
  constructor
  · intro hload
    obtain ⟨-, bytes, hbytes, hparse, -⟩ := Config.load_ok hload
    rw [hread] at hbytes
    cases hbytes
    exact hparse
  · intro hparse
    exact Config.load_of_read? hread hparse hvalid

/-- Settings at the ends of their ranges, and a directory whose name is written with escapes. -/
def Config.extreme : Config :=
  ⟨4294967295, 1, 18446744073709551615, "a\"b\\c\n\x01/é😀", 0, ⟨0.95, 1e-7, 3.0, 1e21, 0.0⟩,
    some 18446744073709551615⟩

/-- The extreme settings are loaded as they were saved. -/
theorem saved_config_loads_iff_of_extreme :
    Config.extreme.validate = .ok () ∧ (Disk.rootedAt []).IsWritable (Path.join "." "workload.json") ∧
      (∀ op, Json.KeepsFloat (Config.extreme.operations.weight op)) ∧
      ∃ saved, Config.extreme.save (Path.join "." "workload.json") (.rootedAt []) = .ok () saved ∧
        Config.load (Path.join "." "workload.json") saved = .ok .extreme saved := by
  have hvalid : Config.extreme.validate = .ok () := rfl
  have hpath : (Disk.rootedAt []).IsWritable (Path.join "." "workload.json") :=
    ⟨["workload.json"], Disk.hasFolder_root.locate?_join (by decide), .inl (by decide)⟩
  have hweights : ∀ op, Json.KeepsFloat (Config.extreme.operations.weight op) := by
    intro op
    rw [Json.keepsFloat_iff]
    cases op <;> decide +kernel
  obtain ⟨saved, hsave, hload⟩ := saved_config_loads_iff hvalid hpath
  exact ⟨hvalid, hpath, hweights, saved, hsave, hload.2 hweights⟩

end GraphBench
