import PgShard.Plan.Planner
import PgShard.Router.Lease
import PgShard.Router.Scatter

/-! The simple-query path of the router: a parsed query is planned and routed, the write lease is checked, and what
remains is forwarded. -/

namespace PgShard

/-- The kinds that change data or schema, which are those that the write lease gates. -/
def StatementKind.isWrite : StatementKind → Bool
  | .insert | .update | .delete | .ddl | .merge | .copy | .other => true
  | _ => false

namespace Router

open Topo

structure Target where
  endpoint : Instance
  database : String
  deriving DecidableEq

inductive Route
  | shard (target : Target)
  | scatter (targets : List Target)
  | broadcast (targets : List Target)
  | system (endpoint : Instance)
  | session
  | needsBind (param : Parameterized)
  | unavailable (reason : String)
  | reject (code reason : String)
  deriving DecidableEq

def target (router : Router) (id : ShardId) : Except Route Target :=
  match router.primaries.find? (·.1 == id) with
  | some (_, some endpoint) => .ok ⟨endpoint, id.id⟩
  | some (_, none) => .error (.unavailable ("shard " ++ id.id ++ " has no primary"))
  | none => .error (.unavailable ("shard " ++ id.id ++ " is not in the topology"))

def resolveMany (router : Router) (ids : List ShardId) (wrap : List Target → Route) : Route :=
  match ids.mapM (target router) with
  | .ok targets => wrap targets
  | .error unavailable => unavailable

def resolve (router : Router) : Plan → Route
  | .singleShard id =>
    match target router id with
    | .ok t => .shard t
    | .error unavailable => unavailable
  | .scatter ids => resolveMany router ids .scatter
  | .broadcast ids => resolveMany router ids .broadcast
  | .unsharded =>
    match router.system with
    | some endpoint => .system endpoint
    | none => .unavailable "system database has no endpoint"
  | .routerLocal => .session
  | .parameterized param => .needsBind param
  | .reject code reason => .reject code reason

def planAll (xxh64 : Xxh64) (parsed : List Node) (vschema : VSchema) (shards : ShardCatalog) : List Plan :=
  parsed.map fun
    | some node => plan xxh64 (classify (some node)) node vschema shards
    | none => .routerLocal

def routeParsed (xxh64 : Xxh64) (router : Router) (parsed : List Node) : List Route :=
  (planAll xxh64 parsed router.vschema router.catalog).map (resolve router)

def anyShardTarget (router : Router) : Option Target :=
  (router.primaries.insertionSort fun a b => a.1.id ≤ b.1.id).findSome? fun (id, primary) =>
    primary.map fun endpoint => ⟨endpoint, id.id⟩

def isTransactionControl (parsed : List Node) : Bool :=
  parsed.any fun node => match classify node with
    | .txnBegin | .txnCommit | .txnRollback | .txnOther => true
    | _ => false

def isWrite (parsed : List Node) : Bool :=
  parsed.any fun node => (classify node).isWrite

/-- The age of the view is above the lease; an age of `none` is `Duration::MAX`. -/
def leaseExpired (age : Option Nat) (lease : Nat) : Bool :=
  !age.any (· ≤ lease)

def leaseRefusal (age : Option Nat) (lease : Nat) : UserError :=
  ⟨"57P01", "write lease expired: topology last confirmed " ++ toString (age.getD (2 ^ 64 - 1)) ++
    "s ago (limit " ++ toString lease ++ "s); refusing writes until the view refreshes"⟩

def leaseCheck (freshness : Option Freshness) (lease wall : Nat) (bootNow : Option Nat) (parsed : List Node) :
    Except UserError Bool :=
  match freshness with
  | none => .ok false
  | some freshness =>
    let age := freshness.age wall bootNow
    if leaseExpired age lease then
      if isWrite parsed then .error (leaseRefusal age lease) else .ok true
    else .ok false

/-- What is sent to the backends. On the shard route an INSERT may first get its sequence ids. -/
inductive Forward
  | shard (target : Target) (readOnly : Bool)
  | system (endpoint : Instance) (readOnly : Bool)
  | session (target : Target) (readOnly : Bool)
  | scatter (plan : ScatterPlan) (targets : List Target) (readOnly : Bool)
  deriving DecidableEq

def dispatch (router : Router) (freshness : Option Freshness) (wall : Nat) (bootNow : Option Nat)
    (parsed : List Node) (route : Route) : Except UserError Forward := do
  let stale ← leaseCheck freshness router.writeLease wall bootNow parsed
  match route with
  | .shard t => .ok (.shard t stale)
  | .system endpoint => .ok (.system endpoint stale)
  | .session =>
    if isTransactionControl parsed then
      .error ⟨"0A000", "transactions are not supported by this router version"⟩
    else
      match anyShardTarget router with
      | some t => .ok (.session t stale)
      | none => .error ⟨"57P01", "no serving shard primary is available to run this statement"⟩
  | .reject code reason => .error ⟨code, reason⟩
  | .unavailable reason => .error ⟨"57P01", reason⟩
  | .scatter targets =>
    match classifyScatter (some parsed) with
    | .unsupported =>
      .error ⟨"0A000", "this scatter read needs limiting or aggregation that is not supported yet"⟩
    | plan => .ok (.scatter plan targets stale)
  | .broadcast _ => .error ⟨"0A000", "broadcast (multi-shard DDL) is not supported yet"⟩
  | .needsBind _ => .error ⟨"0A000", "parameterized queries require the extended protocol"⟩

/-- `do_query` on the parsed text; `none` is the answer to an empty query. -/
def doQuery (xxh64 : Xxh64) (router : Router) (freshness : Option Freshness) (wall : Nat) (bootNow : Option Nat)
    (parsed : List Node) : Except UserError (Option Forward) :=
  match routeParsed xxh64 router parsed with
  | [] => .ok none
  | [route] => (dispatch router freshness wall bootNow parsed route).map some
  | _ => .error ⟨"0A000", "multi-statement simple queries are not supported yet"⟩

theorem doQuery_refused {xxh64 : Xxh64} {router : Router} {freshness : Freshness} {wall : Nat} {bootNow : Option Nat}
    {node : NodeEnum} (write : (classify (some node)).isWrite = true)
    (expired : leaseExpired (freshness.age wall bootNow) router.writeLease = true) :
    doQuery xxh64 router (some freshness) wall bootNow [some node] =
      .error (leaseRefusal (freshness.age wall bootNow) router.writeLease) := by
  have checked : leaseCheck (some freshness) router.writeLease wall bootNow [some node] =
      .error (leaseRefusal (freshness.age wall bootNow) router.writeLease) := by
    simp [leaseCheck, expired, isWrite, write]
  have routed : routeParsed xxh64 router [some node] =
      [resolve router (plan xxh64 (classify (some node)) node router.vschema router.catalog)] := rfl
  simp only [doQuery, routed, dispatch, checked]
  rfl

end Router

end PgShard
