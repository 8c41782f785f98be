import FluxGate.Discovery.Service
import FluxGate.Router
import FluxGate.LoadBalancer

/-!
# `proxy.Server`: pools, routes, the data plane and the control API

The state the server keeps across requests is its router and its map of pools. A registry
snapshot reaches it through the listener `subscribeToServiceChanges` registers, which calls
`updateLoadBalancerBackends` once per service of the snapshot: the first call for a service
adds its pool and its route `/S/*`, every call replaces the pool by a fresh one holding one
active backend per instance whose URL parses. `url.Parse` is a parameter, `urlParses`, the
predicate of the backend URLs it accepts. A response is the status and message of
`http.Error`, or what the handler goes on to do; metrics, logging and the reverse-proxy and
WebSocket forwarding themselves are not modelled.
-/

namespace FluxGate.Proxy

open Discovery

def reservedServiceNames : List String := ["api", "_fluxgate", "health", "metrics", "v1"]

def isReservedServiceName (name : String) : Bool :=
  reservedServiceNames.contains name || hasPrefix name "_"

/-- The state of `proxy.Server` that requests and snapshots change. -/
structure Server where
  router : Router
  loadBalancers : GoMap String LoadBalancer

def Server.new : Server := ⟨Router.new, GoMap.empty⟩

/-- The methods the route of a discovered service admits. -/
def serviceMethods : List String := ["GET", "POST", "PUT", "DELETE", "PATCH", "OPTIONS"]

def backendURL (inst : ServiceInstance) : String :=
  "http://" ++ inst.address ++ ":" ++ toString inst.port.toInt

/-- `strconv.Atoi(s)`: an optional sign, then one or more decimal digits, in the range of `int`. -/
def atoi (s : String) : Option GoInt :=
  let (neg, digits) : Bool × List Char := match s.data with
    | '-' :: ds => (true, ds)
    | '+' :: ds => (false, ds)
    | ds => (false, ds)
  if digits.isEmpty || !digits.all Char.isDigit then none else
  let n : Nat := digits.foldl (fun n c => 10 * n + (c.toNat - '0'.toNat)) 0
  let v : Int := if neg then -(n : Int) else n
  if GoInt.InRange v then some (BitVec.ofInt 64 v) else none

/-- The weight of an instance's backend: `Metadata["weight"]` when `Atoi` reads it, else `1`. -/
def instanceWeight (inst : ServiceInstance) : GoInt :=
  match inst.metadata.get? "weight" with
  | some w => (atoi w).getD 1
  | none => 1

section Pools

variable (urlParses : String → Bool)

/-- The loop of `updateLoadBalancerBackends`: one active backend per instance whose URL
parses, added in order to the fresh pool `newLB`. -/
def addBackends (newLB : LoadBalancer) (instances : List ServiceInstance) : LoadBalancer :=
  instances.foldl (fun lb inst =>
    if urlParses (backendURL inst) then lb.add ⟨backendURL inst, instanceWeight inst, true, 0⟩ else lb)
    newLB

def Server.updateLoadBalancerBackends (s : Server) (serviceName : String)
    (instances : List ServiceInstance) : Server :=
  let (router, lb) := match s.loadBalancers.get? serviceName with
    | some lb => (s.router, lb)
    | none => (s.router.addRoute ("/" ++ serviceName ++ "/*") serviceName serviceMethods, newRoundRobin)
  let newLB := match lb with
    | .leastConnection _ => newLeastConnection
    | .roundRobin _ _ => newRoundRobin
  ⟨router, s.loadBalancers.insert serviceName (addBackends urlParses newLB instances)⟩

/-- The listener `subscribeToServiceChanges` registers, on one snapshot, `range` visiting its
services in `order`. -/
def Server.onServiceChange (s : Server) (services : GoMap String (List ServiceInstance))
    (order : List String) : Server :=
  order.foldl (fun s serviceName =>
    s.updateLoadBalancerBackends urlParses serviceName ((services.get? serviceName).getD [])) s

/-- The backends of a pool built from `instances`: one active backend per instance whose URL
parses, in order. -/
def poolBackends (instances : List ServiceInstance) : List Backend :=
  instances.filterMap fun inst =>
    if urlParses (backendURL inst) then some ⟨backendURL inst, instanceWeight inst, true, 0⟩ else none

theorem addBackends_roundRobin (bs : List Backend) (current : UInt64) (instances : List ServiceInstance) :
    addBackends urlParses (.roundRobin bs current) instances =
      .roundRobin (bs ++ poolBackends urlParses instances) current := by
  induction instances generalizing bs with
  | nil => simp [addBackends, poolBackends]
  | cons inst instances ih =>
    by_cases h : urlParses (backendURL inst) <;>
      simp_all [addBackends, poolBackends, LoadBalancer.add]

end Pools

namespace Server

variable (urlParses : String → Bool)

/-- The route `updateLoadBalancerBackends` adds for a service. -/
def serviceRoute (serviceName : String) : Route :=
  ⟨"/" ++ serviceName ++ "/*", serviceName, serviceMethods⟩

/-- The empty pool `updateLoadBalancerBackends` fills: of the kind of the pool it replaces. -/
def freshPool : Option LoadBalancer → LoadBalancer
  | some (.leastConnection _) => newLeastConnection
  | _ => newRoundRobin

theorem updateLoadBalancerBackends_eq (s : Server) (serviceName : String)
    (instances : List ServiceInstance) :
    s.updateLoadBalancerBackends urlParses serviceName instances =
      ⟨if serviceName ∈ s.loadBalancers.keys then s.router
        else s.router.addRoute ("/" ++ serviceName ++ "/*") serviceName serviceMethods,
       s.loadBalancers.insert serviceName
        (addBackends urlParses (freshPool (s.loadBalancers.get? serviceName)) instances)⟩ := by
  cases h : s.loadBalancers.get? serviceName with
  | none =>
    have : serviceName ∉ s.loadBalancers.keys := (GoMap.get?_eq_none_iff _ _).mp h
    simp [updateLoadBalancerBackends, h, this, freshPool, newRoundRobin]
  | some lb =>
    have : serviceName ∈ s.loadBalancers.keys := (GoMap.get?_isSome_iff _ _).mp (by simp [h])
    cases lb <;> simp [updateLoadBalancerBackends, h, this, freshPool]

theorem routes_updateLoadBalancerBackends (s : Server) (serviceName : String)
    (instances : List ServiceInstance) :
    (s.updateLoadBalancerBackends urlParses serviceName instances).router.routes =
      if serviceName ∈ s.loadBalancers.keys then s.router.routes
      else s.router.routes ++ [serviceRoute serviceName] := by
  rw [updateLoadBalancerBackends_eq]
  split <;> rfl

theorem keys_updateLoadBalancerBackends (s : Server) (serviceName : String)
    (instances : List ServiceInstance) :
    (s.updateLoadBalancerBackends urlParses serviceName instances).loadBalancers.keys =
      if serviceName ∈ s.loadBalancers.keys then s.loadBalancers.keys
      else s.loadBalancers.keys ++ [serviceName] := by
  rw [updateLoadBalancerBackends_eq, GoMap.keys_insert]

theorem get?_updateLoadBalancerBackends (s : Server) (serviceName k : String)
    (instances : List ServiceInstance) :
    (s.updateLoadBalancerBackends urlParses serviceName instances).loadBalancers.get? k =
      if serviceName = k then
        some (addBackends urlParses (freshPool (s.loadBalancers.get? serviceName)) instances)
      else s.loadBalancers.get? k := by
  rw [updateLoadBalancerBackends_eq, GoMap.get?_insert]

end Server

/-- What `handleRequest` does with a request. -/
inductive Outcome
  /-- `http.Error(w, msg, code)`. -/
  | error (code : Nat) (msg : String)
  /-- The request goes to `backend` with `URL.Path` set to `path`. -/
  | forward (backend : Backend) (path : String)
  deriving DecidableEq, Repr

/-- The path rewrite of `handleRequest`: one leading `/S` removed, `/` when nothing remains. -/
def rewritePath (originalPath serviceName : String) : String :=
  let servicePath := "/" ++ serviceName
  if hasPrefix originalPath servicePath then
    let strippedPath := trimPrefix originalPath servicePath
    if strippedPath = "" then "/" else strippedPath
  else originalPath

theorem rewritePath_slash_append (serviceName rest : String) :
    rewritePath ("/" ++ serviceName ++ rest) serviceName = if rest = "" then "/" else rest := by
  simp only [rewritePath, hasPrefix_append, trimPrefix_append, if_true]

/-- `handleRequest(w, r)`, with the pool after its `Next()`. -/
def Server.handleRequest (s : Server) (req : Request) : Outcome × Server :=
  match s.router.«match» req with
  | none => (.error 404 "No route found", s)
  | some route => match s.loadBalancers.get? route.serviceName with
    | none => (.error 500 "Service not configured", s)
    | some lb =>
      let s' := { s with loadBalancers := s.loadBalancers.insert route.serviceName lb.next.2 }
      match lb.next.1 with
      | none => (.error 503 "No healthy backends", s')
      | some backend => (.forward backend (rewritePath req.path route.serviceName), s')

theorem Server.handleRequest_state (s : Server) (req : Request) :
    (s.handleRequest req).2 = s ∨
      ∃ k lb, s.loadBalancers.get? k = some lb ∧
        (s.handleRequest req).2 = { s with loadBalancers := s.loadBalancers.insert k lb.next.2 } := by
  unfold handleRequest
  split
  · exact .inl rfl
  · next route _ =>
    split
    · exact .inl rfl
    · next lb hlb => split <;> exact .inr ⟨route.serviceName, lb, hlb, rfl⟩

theorem Server.handleRequest_forward {s : Server} {req : Request} {route : Route}
    (hm : s.router.«match» req = some route) {backend : Backend} {path : String}
    (hf : (s.handleRequest req).1 = .forward backend path) :
    path = rewritePath req.path route.serviceName := by
  simp only [handleRequest, hm] at hf
  split at hf
  · cases hf
  · split at hf
    · cases hf
    · exact (Outcome.forward.inj hf).2.symm

/-- What a handler of the control API answers. -/
inductive Response
  /-- `http.Error(w, msg, code)`. -/
  | error (code : Nat) (msg : String)
  /-- `201 Created`, with the registered instance. -/
  | created (inst : ServiceInstance)
  /-- `200 OK`, with the deregistered `ID`. -/
  | deregistered (serviceID : String)

/-- `handleServiceRegistration(w, r)` on a request with method `method` and body `body`, with
the registry after it and what `Register` hands on. -/
def handleServiceRegistration (d : Service) (method : String) (body : Payload) :
    Response × Service × List Effect :=
  if method ≠ "POST" then (.error 405 "Method not allowed", d, []) else
  match body.map (decodeInstance .zero) with
  | some (.ok inst) =>
    if inst.id = "" ∨ inst.service = "" ∨ inst.address = "" ∨ inst.port = 0 then
      (.error 400 "Missing required fields: id, service, address, port", d, [])
    else if isReservedServiceName inst.service then
      (.error 400 ("Service name '" ++ inst.service ++ "' is reserved"), d, [])
    else (.created inst, d.register inst)
  | _ => (.error 400 "Invalid JSON", d, [])

/-- `handleServiceDeregistration(w, r)` on a request with method `method` and query parameter
`id` equal to `serviceID`, `Deregister` visiting the services in `order`. -/
def handleServiceDeregistration (d : Service) (order : List String) (method serviceID : String) :
    Response × Service × List Effect :=
  if method ≠ "DELETE" then (.error 405 "Method not allowed", d, []) else
  if serviceID = "" then (.error 400 "Missing service ID parameter", d, []) else
  match d.deregister order serviceID with
  | .ok r => (.deregistered serviceID, r)
  | .error _ => (.error 500 "Deregistration failed", d, [])

end FluxGate.Proxy
