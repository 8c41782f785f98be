import FluxGate.Builtins

/-!
# `loadbalancer`: the two backend pools

A pool is one of the two implementations of the `LoadBalancer` interface, with its fields:
`RoundRobin` keeps its backends and a `uint64` counter, `LeastConnection` its backends, whose
`Connections` counters `Next` raises. A backend's `URL` is kept as the text `url.Parse` read. The
methods that take a `*Backend` act on the backend at a position of the pool; every backend the
proxy adds is a fresh one, so positions and pointers name the same backends. The locks and the
atomics are not modelled: each method is one step.
-/

namespace FluxGate

structure Backend where
  url : String
  weight : GoInt
  active : Bool
  connections : GoInt
  deriving DecidableEq, Repr

/-- A `LoadBalancer` value: `*RoundRobin` or `*LeastConnection`. -/
inductive LoadBalancer
  | roundRobin (backends : List Backend) (current : UInt64)
  | leastConnection (backends : List Backend)
  deriving DecidableEq, Repr

def newRoundRobin : LoadBalancer := .roundRobin [] 0

def newLeastConnection : LoadBalancer := .leastConnection []

/-- `RoundRobin.Next()`: the active backends in pool order, indexed by the raised counter. -/
def RoundRobin.next (backends : List Backend) (current : UInt64) : Option Backend × UInt64 :=
  if backends.length = 0 then (none, current) else
  let activeBackends := backends.filter (·.active)
  if activeBackends.length = 0 then (none, current) else
  let n := current + 1
  (activeBackends[(n % activeBackends.length.toUInt64).toNat]?, n)

private theorem rr_index_lt {L : Nat} (hL : 0 < L) (n : UInt64) : (n % L.toUInt64).toNat < L := by
  show n.toNat % (L % 2 ^ 64) < L
  by_cases h : L % 2 ^ 64 = 0
  · have : n.toNat < 2 ^ 64 := n.val.isLt
    rw [h, Nat.mod_zero]
    omega
  · exact lt_of_lt_of_le (Nat.mod_lt _ (Nat.pos_of_ne_zero h)) (Nat.mod_le _ _)

theorem RoundRobin.next_eq_none_iff (backends : List Backend) (current : UInt64) :
    (RoundRobin.next backends current).1 = none ↔ ∀ b ∈ backends, b.active = false := by
  unfold RoundRobin.next
  by_cases h0 : backends.length = 0
  · simp [List.length_eq_zero.mp h0]
  by_cases h1 : (backends.filter (·.active)).length = 0
  · simp only [h0, h1, if_true, if_false, true_iff]
    simpa using List.filter_eq_nil_iff.mp (List.length_eq_zero.mp h1)
  · simp only [h0, h1, if_false]
    rw [List.getElem?_eq_getElem (rr_index_lt (Nat.pos_of_ne_zero h1) _)]
    obtain ⟨b, hb⟩ := List.exists_mem_of_length_pos (Nat.pos_of_ne_zero h1)
    simp only [reduceCtorEq, false_iff, not_forall]
    exact ⟨b, (List.mem_filter.mp hb).1, by simpa using (List.mem_filter.mp hb).2⟩

theorem RoundRobin.mem_of_next {backends : List Backend} {current : UInt64} {b : Backend}
    (h : (RoundRobin.next backends current).1 = some b) : b ∈ backends ∧ b.active = true := by
  unfold RoundRobin.next at h
  dsimp only at h
  split at h
  · cases h
  split at h
  · cases h
  obtain ⟨_, rfl⟩ := List.getElem?_eq_some_iff.mp h
  simpa using List.mem_filter.mp (List.getElem_mem _)

/-- The loop of `LeastConnection.Next` from position `i` on: the position and count of the
active backend with the fewest connections so far, by a strict signed `<`. -/
def LeastConnection.scan : List Backend → Nat → Option Nat × GoInt → Option Nat × GoInt
  | [], _, acc => acc
  | b :: rest, i, acc =>
    scan rest (i + 1) (if b.active && b.connections.slt acc.2 then (some i, b.connections) else acc)

/-- `int64(^uint64(0) >> 1)`, where the scan starts. -/
def maxInt64 : GoInt := BitVec.ofInt 64 (2 ^ 63 - 1)

/-- `LeastConnection.Next()`: the selected backend, its `Connections` raised by one. -/
def LeastConnection.next (backends : List Backend) : Option Backend × List Backend :=
  match (LeastConnection.scan backends 0 (none, maxInt64)).1 with
  | none => (none, backends)
  | some i =>
    let backends' := backends.modify (fun b => { b with connections := b.connections + 1 }) i
    (backends'[i]?, backends')

/-- `LeastConnection.ReleaseConnection(backend)` of the backend at position `i`, a method of
`*LeastConnection` only. -/
def LeastConnection.releaseConnection (backends : List Backend) (i : Nat) : List Backend :=
  backends.modify (fun b => { b with connections := b.connections - 1 }) i

/-- `Remove(url)`: the first backend whose URL prints as `url` leaves the pool. -/
def removeURL (url : String) : List Backend → List Backend
  | [] => []
  | b :: rest => if b.url = url then rest else b :: removeURL url rest

namespace LoadBalancer

def backends : LoadBalancer → List Backend
  | .roundRobin bs _ => bs
  | .leastConnection bs => bs

/-- `Add(backend)`. `LeastConnection` marks the backend active first. -/
def add : LoadBalancer → Backend → LoadBalancer
  | .roundRobin bs current, b => .roundRobin (bs ++ [b]) current
  | .leastConnection bs, b => .leastConnection (bs ++ [{ b with active := true }])

def remove : LoadBalancer → String → LoadBalancer
  | .roundRobin bs current, url => .roundRobin (removeURL url bs) current
  | .leastConnection bs, url => .leastConnection (removeURL url bs)

/-- `Next()`: the backend for a request, `none` for nil, and the pool after it. -/
def next : LoadBalancer → Option Backend × LoadBalancer
  | .roundRobin bs current => let r := RoundRobin.next bs current; (r.1, .roundRobin bs r.2)
  | .leastConnection bs => let r := LeastConnection.next bs; (r.1, .leastConnection r.2)

/-- `MarkHealthy` and `MarkUnhealthy` of the backend at position `i`. -/
def setActive (lb : LoadBalancer) (i : Nat) (active : Bool) : LoadBalancer :=
  let f := fun bs : List Backend => bs.modify (fun b => { b with active := active }) i
  match lb with
  | .roundRobin bs current => .roundRobin (f bs) current
  | .leastConnection bs => .leastConnection (f bs)

def markHealthy (lb : LoadBalancer) (i : Nat) : LoadBalancer := lb.setActive i true

def markUnhealthy (lb : LoadBalancer) (i : Nat) : LoadBalancer := lb.setActive i false

/-- A call of the `LoadBalancer` interface; a backend argument is its position in the pool. -/
inductive Method
  | add (backend : Backend)
  | remove (url : String)
  | next
  | markHealthy (i : Nat)
  | markUnhealthy (i : Nat)
  deriving DecidableEq, Repr

def call (lb : LoadBalancer) : Method → LoadBalancer
  | .add b => lb.add b
  | .remove url => lb.remove url
  | .next => lb.next.2
  | .markHealthy i => lb.markHealthy i
  | .markUnhealthy i => lb.markUnhealthy i

/-- What the `Next` calls among `ms` return, the calls made in turn from `lb`. -/
def returns (lb : LoadBalancer) : List Method → List (Option Backend)
  | [] => []
  | m :: ms => (if m = .next then [lb.next.1] else []) ++ (lb.call m).returns ms

/-- The pools a program reaches through the interface, from either constructor. -/
inductive Reachable : LoadBalancer → Prop
  | roundRobin : Reachable newRoundRobin
  | leastConnection : Reachable newLeastConnection
  | call {lb : LoadBalancer} (m : Method) : Reachable lb → Reachable (lb.call m)

theorem backends_add {b : Backend} (h : b.active = true) (lb : LoadBalancer) :
    (lb.add b).backends = lb.backends ++ [b] := by
  obtain ⟨url, weight, active, connections⟩ := b
  cases lb <;> simp_all [add, backends]

end LoadBalancer

end FluxGate
