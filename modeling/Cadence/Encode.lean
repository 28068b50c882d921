import Cadence.Traffic
/-!
Tick reports as values. The entries of every object stand in the order in which they are listed
here, not in the order of their keys, and so they are printed.
-/

namespace Cadence

namespace Json

def nat (n : Nat) : Json := .int n

def option {α : Type} (encode : α → Json) : Option α → Json
  | none => .null
  | some a => encode a

def list {α : Type} (encode : α → Json) (items : List α) : Json :=
  .arr (items.map encode)

end Json

def Address.encode (address : Address) : Json :=
  .obj [("object", .str address.object), ("offset", .nat address.offset)]

def Traffic.entries : Traffic → List (String × Json)
  | load address params => [("address", address.encode), ("params", .arr params)]
  | log address entries => [("address", address.encode), ("logs", .arr entries)]
  | sendData source target params | callDependency source target params =>
    [("from", source.encode), ("to", target.encode), ("params", .arr params)]
  | resolveDependency source target value =>
    [("from", source.encode), ("to", target.encode), ("value", value)]
  | unload address value => [("address", address.encode), ("return_value", value)]
  | halt address covered total =>
    [("address", address.encode), ("covered_halts", .nat covered), ("halted_for", .nat total)]

def Response.encode (response : Response) : Json :=
  .obj (("type", .str response.traffic.label) :: response.traffic.entries
    ++ [("tick", .nat response.tick), ("is_auto_pop", .bool response.isAutoPop)])

def Cancellation.encode (flow : Cancellation) : Json :=
  .obj [("id", .nat flow.id), ("name", .str flow.name), ("parent_flow", .nat flow.parent),
    ("caller", .option Address.encode flow.caller),
    ("root_caller", .option Address.encode flow.rootCaller),
    ("open_frames", .list Address.encode flow.openFrames),
    ("spawned_at", .nat flow.spawnedAt), ("cancelled_at", .nat flow.cancelledAt)]

def Completion.encode (flow : Completion) : Json :=
  .obj [("id", .nat flow.id), ("name", .str flow.name), ("return_value", flow.value),
    ("last_address", .option Address.encode flow.lastAddress),
    ("spawned_at", .nat flow.spawnedAt), ("completed_at", .nat flow.completedAt),
    ("completion_order", .nat flow.order)]

def Report.encode : Report → Json
  | yielded flow name responses =>
    .obj [("status", .str "yielded"), ("flow_id", .nat flow), ("flow_name", .str name),
      ("responses", .list Response.encode responses)]
  | constructed flow name value cancelled =>
    .obj [("status", .str "constructed"), ("flow_id", .nat flow), ("flow_name", .str name),
      ("return_value", value), ("cancelled", .list Cancellation.encode cancelled)]

def TickReport.encode (report : TickReport) : Json :=
  .obj [("tick", .nat report.tick), ("results", .list Report.encode report.reports)]

end Cadence
