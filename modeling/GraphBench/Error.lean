import GraphBench.Component.Kind
import GraphBench.Operation
import GraphBench.Text.Decimal

/-!
What can go wrong while a workload is prepared, and the messages for it.
-/

namespace GraphBench

inductive ConfigFault where
  | noProducts
  | badWeight (operation : Operation)
  | zeroWeights
  | notRunPhase
  deriving DecidableEq

def ConfigFault.message : ConfigFault → String
  | .noProducts => "productsPerOrder must be at least 1"
  | .badWeight op => "operation weight for " ++ op.label ++ " must be finite and non-negative"
  | .zeroWeights => "operation weights sum to zero"
  | .notRunPhase => "transactions require a run phase driver"

/-- How recorded components differ from what a recording makes. -/
inductive IntegrityFault where
  | missing (kind : ComponentKind) (id : UInt64)
  | noNode
  | unexpectedLabel (id : UInt64) (label expected : String)
  deriving DecidableEq

def IntegrityFault.message : IntegrityFault → String
  | .missing kind id => "load baseline is missing " ++ kind.table ++ " " ++ Decimal.ofUInt64 id
  | .noNode => "absorbed increment has no node"
  | .unexpectedLabel id label expected =>
    "node " ++ Decimal.ofUInt64 id ++ " is " ++ quoted label ++ ", expected " ++ quoted expected

/-- Why a workload cannot be prepared. `unprepared` is a directory or file that cannot be made or removed,
`unreadable` a file that cannot be read or written. `infiniteWeights` is no error that is returned: the program stops
where the weights of a mix are to be drawn from and have no finite total. -/
inductive WorkloadError where
  | unprepared (path : String)
  | unreadable (path : String)
  | invalidConfig (fault : ConfigFault)
  | infiniteWeights
  | integrity (fault : IntegrityFault)
  | badConfigFile
  deriving DecidableEq

def WorkloadError.message : WorkloadError → String
  | .unprepared path => "cannot prepare " ++ path
  | .unreadable path => "cannot read or write " ++ path
  | .invalidConfig fault => "invalid configuration: " ++ fault.message
  | .infiniteWeights => "operation weights sum to infinity"
  | .integrity fault => "data integrity: " ++ fault.message
  | .badConfigFile => "the configuration file is not valid JSON for a configuration"

end GraphBench
