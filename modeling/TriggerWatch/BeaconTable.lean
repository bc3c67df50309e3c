import TriggerWatch.Datum

/-!
# Classes of beacons

A submission may name a beacon. The class of the beacon is then recorded in place of the reported
value.

## Main definitions

- `BeaconTable` — the class of each known beacon
- `BeaconTable.resolve` — the value to record
-/

namespace TriggerWatch

/-- The class of each known beacon. -/
abbrev BeaconTable := Dict String

namespace BeaconTable

/-- The class of a beacon, if it is known. -/
def class? (table : BeaconTable) (beacon : String) : Option String := Dict.get? table beacon

/-- The value to record for a reported value; a beacon that is not known is handed back. -/
def resolve (table : BeaconTable) (value : Datum) (beacon : Option String) :
    Except String Datum :=
  match beacon with
  | none => .ok value
  | some beacon =>
    match table.class? beacon with
    | some name => .ok (.text name)
    | none => .error beacon

end BeaconTable

end TriggerWatch
