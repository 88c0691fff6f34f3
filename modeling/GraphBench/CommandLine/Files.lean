import GraphBench.CommandLine.Commands

/-!
The places on a disk that an invocation may touch, and what it has changed there.
-/

namespace GraphBench

def datasetFiles (directory : Path) : List Path :=
  componentFiles directory .load ++ componentFiles directory .run ++ Chooser.files directory ++
    [Path.join directory operationsName]

/-- The paths of the places on the way to a path, ending with the path itself. -/
def Path.stages (path : Path) : List Path :=
  let names := path.names
  (List.range names.length).map fun n => "/".intercalate (names.take (n + 1))

/-- The paths that a command with a configuration may touch, outer directories first. -/
def Command.paths (command : Command) (config : Config) : List Path :=
  match command with
  | .writeConfig path => Path.stages path
  | _ => Path.stages config.dataSetDirectory ++ datasetFiles config.dataSetDirectory

inductive Change where
  | directory (path : Path)
  | file (path : Path) (content : ByteArray)
  | removal (path : Path)

def Disk.change? (before after : Disk) (path : Path) : Option Change :=
  if after.isDirectory path then
    if before.isDirectory path then none else some (.directory path)
  else
    match before.read? path, after.read? path with
    | none, none => none
    | some _, none => some (.removal path)
    | none, some content => some (.file path content)
    | some old, some content =>
      if old.data = content.data then none else some (.file path content)

def Disk.changes (before after : Disk) (paths : List Path) : List Change :=
  paths.filterMap (before.change? after)

end GraphBench
