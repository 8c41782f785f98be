import FluxGate.Proxy.Routes

/-!
# A node's registry wired to its proxy

Every registry operation that changes the table hands a snapshot of the whole table to the
listener of `subscribeToServiceChanges`, which runs as a goroutine of its own: it makes one
`updateLoadBalancerBackends` call per service of the snapshot, in `range` order, and the calls
of different snapshots interleave in any way. A node is its registry, its proxy and the calls
each snapshot in flight still owes. Taken in any order, an older snapshot can land last and
leave a pool behind its service; taken in snapshot order for each service, every pool ends up
holding one active backend per instance of its service whose URL parses, in registry order.
-/

namespace FluxGate.Proxy

open Discovery

/-- One `updateLoadBalancerBackends` call a snapshot still owes: a service and its instances. -/
abbrev Call := String × List ServiceInstance

/-- The calls the listener makes on a snapshot, `range` visiting its services in `order`. -/
def snapshotCalls (services : GoMap String (List ServiceInstance)) (order : List String) :
    List Call :=
  order.map fun k => (k, (services.get? k).getD [])

/-- The snapshots a list of effects hands to the listeners. -/
def snapshots : List Effect → List (GoMap String (List ServiceInstance))
  | [] => []
  | .notifyListeners services :: rest => services :: snapshots rest
  | .queueBroadcast _ :: rest => snapshots rest

theorem snapshots_run (s : Service) (op : Service.Op) :
    (snapshots (s.run op).2 = [] ∧ (s.run op).1 = s) ∨
      snapshots (s.run op).2 = [(s.run op).1.getAllServices] := by
  cases op with
  | register inst => exact .inr rfl
  | deregister order serviceID =>
    cases h : s.removeId serviceID order <;> simp [Service.run, Service.deregister, h, snapshots]
  | notifyMsg order msg =>
    simp only [Service.run, Service.notifyMsg]
    repeat' split
    all_goals simp [snapshots]
  | mergeRemoteState buf =>
    simp only [Service.run, Service.mergeRemoteState]
    repeat' split
    all_goals simp [snapshots]

/-- A node: its registry, its proxy, and the calls each snapshot in flight still owes. -/
structure Node where
  registry : Service
  server : Server
  inFlight : List (List Call)

namespace Node

variable (urlParses : String → Bool) (inOrder : Bool)

/-- The steps of a node. An operation on the registry puts its snapshot in flight; the listener
makes the next call of any snapshot in flight, the first of the calls for its service when
`inOrder` holds; a request takes a backend from a pool. -/
inductive Step : Node → Node → Prop
  | mutate (n : Node) (op : Service.Op) (hop : op.Admissible n.registry) (order : List String)
      (horder : ∀ services ∈ snapshots (n.registry.run op).2, order.Perm services.keys) :
      Step n ⟨(n.registry.run op).1, n.server,
        n.inFlight ++ (snapshots (n.registry.run op).2).map (snapshotCalls · order)⟩
  | process (n : Node) (pre post : List (List Call)) (c : Call) (rest : List Call)
      (h : n.inFlight = pre ++ (c :: rest) :: post)
      (hfifo : inOrder = true → ∀ l ∈ pre, ∀ c' ∈ l, c'.1 ≠ c.1) :
      Step n ⟨n.registry, n.server.updateLoadBalancerBackends urlParses c.1 c.2, pre ++ rest :: post⟩
  | request (n : Node) (req : Request) : Step n { n with server := (n.server.handleRequest req).2 }

/-- The states of a node. `Start` subscribes the proxy, as `New` made it, to a registry that
`discovery.New` made empty and that its `Join` merge of the seed's `LocalState`, and any gossip
before `Start`, may already have filled: none of those changes reached a listener. -/
inductive Reachable : Node → Prop
  | start {registry : Service} : registry.Reachable → Reachable ⟨registry, Server.new, []⟩
  | step {n n' : Node} : Reachable n → Step urlParses inOrder n n' → Reachable n'

def Quiescent (n : Node) : Prop := ∀ l ∈ n.inFlight, l = []

end Node

section AnyOrder

open Node

/-- Every service of the registry has a pool with one
active backend per instance, in registry order, with URL `http://Address:Port`. -/
def PoolsMatchRegistry (n : Node) : Prop :=
  ∀ S ∈ n.registry.services.keys, ∃ lb, n.server.loadBalancers.get? S = some lb ∧
    lb.backends.map (fun b => (b.url, b.active)) =
      (n.registry.getInstances S).map fun inst => (backendURL inst, true)

/-- The instance the runs below register: `x` of `a` at `h:1`. -/
def probe : ServiceInstance := ⟨"x", "a", "h", 1, StrMap.empty⟩

/-- Whatever `url.Parse` accepts, some node at rest has a pool out of step with its registry:
when `http://h:1` parses, `Register(x)` then `Deregister("x")` with the first snapshot taken
last; when it does not, `Register(x)` alone. -/
theorem stale_snapshot_lands_last :
    ¬ ∃ urlParses : String → Bool, ∀ n, Reachable urlParses false n → n.Quiescent →
      PoolsMatchRegistry n := by
  rintro ⟨urlParses, h⟩
  have h1 : Reachable urlParses false
      ⟨(Service.empty.run (.register probe)).1, Server.new, [[("a", [probe])]]⟩ :=
    .step (.start .empty) (.mutate _ (.register probe) trivial ["a"] (by decide))
  have ha : "a" ∈ (Service.empty.run (.register probe)).1.services.keys := by decide
  have hx : (Service.empty.run (.register probe)).1.getInstances "a" = [probe] := by decide
  cases hu : urlParses (backendURL probe)
  · obtain ⟨lb, hlb, hmap⟩ := h _ (.step h1 (.process _ [] [] ("a", [probe]) [] rfl (by simp)))
      (by simp [Quiescent]) "a" ha
    simp [Server.get?_updateLoadBalancerBackends, Server.freshPool, Server.new, newRoundRobin,
      addBackends_roundRobin, poolBackends, hu] at hlb
    subst hlb
    simp [hx, LoadBalancer.backends] at hmap
  · have h2 : Reachable urlParses false
        ⟨((Service.empty.run (.register probe)).1.run (.deregister ["a"] "x")).1, Server.new,
          [[("a", [probe])], [("a", [])]]⟩ :=
      .step h1 (.mutate _ (.deregister ["a"] "x") (by exact List.Perm.refl _) ["a"] (by decide))
    have h3 := h2.step (.process _ [[("a", [probe])]] [] ("a", []) [] rfl (by simp))
    have h4 := h3.step (.process _ [] [[]] ("a", [probe]) [] rfl (by simp))
    obtain ⟨lb, hlb, hmap⟩ := h _ h4 (by simp [Quiescent]) "a" (by exact ha)
    have h0 : ((Service.empty.run (.register probe)).1.run (.deregister ["a"] "x")).1.getInstances "a" = [] := by
      decide
    simp [Server.get?_updateLoadBalancerBackends, Server.freshPool, Server.new, newRoundRobin,
      addBackends_roundRobin, poolBackends, hu] at hlb
    subst hlb
    simp [h0, LoadBalancer.backends] at hmap

end AnyOrder

section InOrder

variable (urlParses : String → Bool)

/-- The instance lists of the calls still owed for a service, in the order they are in flight. -/
def pending (serviceName : String) (inFlight : List (List Call)) : List (List ServiceInstance) :=
  inFlight.flatten.filterMap fun c => if c.1 = serviceName then some c.2 else none

@[simp] theorem pending_append (serviceName : String) (a b : List (List Call)) :
    pending serviceName (a ++ b) = pending serviceName a ++ pending serviceName b := by
  simp [pending]

@[simp] theorem pending_cons (serviceName : String) (l : List Call) (a : List (List Call)) :
    pending serviceName (l :: a) = pending serviceName [l] ++ pending serviceName a := by
  simp [pending]

theorem pending_snapshotCalls {services : GoMap String (List ServiceInstance)} {order : List String}
    (horder : order.Perm services.keys) {serviceName : String} (hS : serviceName ∈ services.keys) :
    pending serviceName [snapshotCalls services order] = [(services.get? serviceName).getD []] := by
  have hnd : order.Nodup := horder.nodup_iff.mpr services.nodup
  have hmem : serviceName ∈ order := horder.mem_iff.mpr hS
  simp only [pending, List.flatten_cons, List.flatten_nil, List.append_nil, snapshotCalls]
  obtain ⟨a, b, rfl⟩ := List.append_of_mem hmem
  have ha : serviceName ∉ a := fun h => (List.nodup_middle.mp hnd).not_mem (List.mem_append_left _ h)
  have hb : serviceName ∉ b := fun h => (List.nodup_middle.mp hnd).not_mem (List.mem_append_right _ h)
  rw [List.map_append, List.map_cons, List.filterMap_append, List.filterMap_cons]
  simp only [if_true, List.filterMap_map]
  rw [List.filterMap_eq_nil_iff.mpr, List.filterMap_eq_nil_iff.mpr]
  · rfl
  · intro k hk; simp [Function.comp, show k ≠ serviceName from fun h => hb (h ▸ hk)]
  · intro k hk; simp [Function.comp, show k ≠ serviceName from fun h => ha (h ▸ hk)]

theorem getD_getAllServices (s : Service) (serviceName : String) :
    (s.getAllServices.get? serviceName).getD [] = s.getInstances serviceName := by
  simp only [Service.getAllServices, GoMap.get?_mapValues, Service.getInstances, Service.lookup]
  cases s.services.get? serviceName <;> rfl

namespace Node

/-- What holds of every node whose listener takes the calls of each service in snapshot
order: every pool is a `RoundRobin`; the last call owed for a service carries its current
instances; once the listener has been handed a snapshot, a service owed nothing has the pool of
its current instances, and until then the proxy is as `New` made it. -/
structure InOrder (n : Node) : Prop where
  roundRobin : ∀ k lb, n.server.loadBalancers.get? k = some lb → ∃ bs current, lb = .roundRobin bs current
  last : ∀ S ∈ n.registry.services.keys, ∀ l, (pending S n.inFlight).getLast? = some l →
    l = n.registry.getInstances S
  settled : ∀ S ∈ n.registry.services.keys, pending S n.inFlight = [] → n.inFlight ≠ [] →
    ∃ current, n.server.loadBalancers.get? S =
      some (.roundRobin (poolBackends urlParses (n.registry.getInstances S)) current)
  unheard : n.inFlight = [] → n.server = Server.new

theorem freshPool_eq {o : Option LoadBalancer} (h : ∀ lb, o = some lb → ∃ bs current, lb = .roundRobin bs current) :
    Server.freshPool o = newRoundRobin := by
  rcases o with _ | lb
  · rfl
  · obtain ⟨bs, current, rfl⟩ := h lb rfl
    rfl

theorem inOrder_start (registry : Service) : InOrder urlParses ⟨registry, Server.new, []⟩ :=
  ⟨fun _ _ h => by simp [Server.new] at h, fun _ _ _ h => by simp [pending] at h,
    fun _ _ _ h => absurd rfl h, fun _ => rfl⟩

section Steps

variable {urlParses}
variable {registry : Service} {server : Server} {inFlight : List (List Call)}

theorem inOrder_mutate (hn : InOrder urlParses ⟨registry, server, inFlight⟩) (op : Service.Op)
    (order : List String)
    (horder : ∀ services ∈ snapshots (registry.run op).2, order.Perm services.keys) :
    InOrder urlParses ⟨(registry.run op).1, server,
      inFlight ++ (snapshots (registry.run op).2).map (snapshotCalls · order)⟩ := by
  rcases snapshots_run registry op with ⟨hs, hr⟩ | hs
  · rw [hs, hr]
    simpa using hn
  · rw [hs] at horder ⊢
    have hperm := horder _ (List.mem_singleton_self _)
    have hkeys : ∀ S ∈ (registry.run op).1.services.keys,
        pending S (inFlight ++ [snapshotCalls (registry.run op).1.getAllServices order]) =
          pending S inFlight ++ [(registry.run op).1.getInstances S] := fun S hS => by
      rw [pending_append, pending_snapshotCalls hperm (by simpa [Service.getAllServices] using hS),
        getD_getAllServices]
    refine ⟨hn.roundRobin, fun S hS l hl => ?_, fun S hS hp _ => ?_, fun h => absurd h (by simp)⟩
    · rw [List.map_singleton, hkeys S hS, List.getLast?_append, List.getLast?_singleton] at hl
      exact (Option.some.inj hl).symm
    · rw [List.map_singleton, hkeys S hS] at hp
      exact absurd hp (by simp)

theorem inOrder_process (hn : InOrder urlParses ⟨registry, server, inFlight⟩)
    {pre post : List (List Call)} {c : Call} {rest : List Call}
    (h : inFlight = pre ++ (c :: rest) :: post) (hfifo : ∀ l ∈ pre, ∀ c' ∈ l, c'.1 ≠ c.1) :
    InOrder urlParses ⟨registry, server.updateLoadBalancerBackends urlParses c.1 c.2, pre ++ rest :: post⟩ := by
  have hpre : pending c.1 pre = [] := by
    simp only [pending, List.filterMap_eq_nil_iff, List.mem_flatten]
    rintro c' ⟨l, hl, hc'⟩
    simp [hfifo l hl c' hc']
  have hold : ∀ S, pending S inFlight =
      pending S pre ++ ((if c.1 = S then [c.2] else []) ++ pending S (rest :: post)) := by
    intro S
    rw [h, pending_append, pending_cons, pending_cons (l := rest)]
    by_cases hc : c.1 = S <;> simp [pending, hc]
  have hfresh := freshPool_eq (hn.roundRobin c.1)
  refine ⟨fun k lb hk => ?_, fun S hS l hl => ?_, fun S hS hp _ => ?_, fun h' => absurd h' (by simp)⟩
  · rw [Server.get?_updateLoadBalancerBackends] at hk
    split at hk
    · rw [hfresh, newRoundRobin, addBackends_roundRobin] at hk
      exact ⟨_, _, (Option.some.inj hk).symm⟩
    · exact hn.roundRobin k lb hk
  · apply hn.last S hS l
    rw [pending_append] at hl
    by_cases hc : c.1 = S
    · subst hc
      rw [hpre, List.nil_append] at hl
      rw [hold, hpre, if_pos rfl, List.nil_append, List.singleton_append, List.getLast?_cons, hl]
      rfl
    · rw [hold, if_neg hc, List.nil_append]
      exact hl
  · rw [pending_append, List.append_eq_nil] at hp
    by_cases hc : c.1 = S
    · subst hc
      have hlast : c.2 = registry.getInstances c.1 :=
        hn.last _ hS _ (by rw [hold, hp.1, hp.2, if_pos rfl]; rfl)
      refine ⟨0, ?_⟩
      rw [Server.get?_updateLoadBalancerBackends, if_pos rfl, hfresh, newRoundRobin,
        addBackends_roundRobin, ← hlast]
      rfl
    · obtain ⟨current, hcur⟩ :=
        hn.settled S hS (by rw [hold, hp.1, hp.2, if_neg hc]; rfl) (by rw [h]; simp)
      exact ⟨current, by rw [Server.get?_updateLoadBalancerBackends, if_neg hc, hcur]⟩

theorem inOrder_request (hn : InOrder urlParses ⟨registry, server, inFlight⟩) (req : Request) :
    InOrder urlParses ⟨registry, (server.handleRequest req).2, inFlight⟩ := by
  rcases Server.handleRequest_state server req with h | ⟨k, lb, hk, h⟩ <;> rw [h]
  · exact hn
  · obtain ⟨bs, current, rfl⟩ := hn.roundRobin k _ hk
    refine ⟨fun k' lb' hk' => ?_, hn.last, fun S hS hp hne => ?_, fun he => ?_⟩
    · simp only [GoMap.get?_insert] at hk'
      split at hk'
      · exact ⟨_, _, (Option.some.inj hk').symm⟩
      · exact hn.roundRobin k' lb' hk'
    · obtain ⟨current', hcur⟩ := hn.settled S hS hp hne
      simp only [GoMap.get?_insert]
      split
      · next hkS =>
        subst hkS
        rw [hk] at hcur
        obtain ⟨rfl⟩ := Option.some.inj hcur
        exact ⟨_, rfl⟩
      · exact ⟨current', hcur⟩
    · have hs : server = Server.new := hn.unheard he
      subst hs
      simp [Server.new] at hk

end Steps

theorem reachable_inOrder {n : Node} (h : Reachable urlParses true n) : InOrder urlParses n := by
  induction h with
  | start _ => exact inOrder_start urlParses _
  | step _ hs ih =>
    cases hs with
    | mutate op _ order horder => exact inOrder_mutate ih op order horder
    | process pre post c rest h hfifo => exact inOrder_process ih h (hfifo rfl)
    | request req => exact inOrder_request ih req

variable {urlParses} in
theorem InOrder.inFlight_ne_nil {n : Node} (hi : InOrder urlParses n)
    (h : n.server.loadBalancers.keys ≠ []) : n.inFlight ≠ [] :=
  fun he => h (by rw [hi.unheard he]; rfl)

theorem pending_eq_nil {n : Node} (hq : n.Quiescent) (serviceName : String) :
    pending serviceName n.inFlight = [] := by
  simp only [pending, List.filterMap_eq_nil_iff, List.mem_flatten]
  rintro c ⟨l, hl, hc⟩
  exact absurd (hq l hl ▸ hc) (List.not_mem_nil c)

/-- When the listener takes the calls for each service in the order of the snapshots, a node at
rest has either handed its listener no snapshot since `Start`, its proxy then as `New` made it
whatever the registry holds, or, for every service of its registry, a `RoundRobin` pool holding
one active backend per instance of the service whose URL parses, in registry order. -/
theorem pools_current_in_order (n : Node) (h : Reachable urlParses true n) (hq : n.Quiescent) :
    (n.inFlight = [] ∧ n.server = Server.new) ∨
      ∀ S ∈ n.registry.services.keys, ∃ current, n.server.loadBalancers.get? S =
        some (.roundRobin (poolBackends urlParses (n.registry.getInstances S)) current) := by
  have hi := reachable_inOrder urlParses h
  by_cases he : n.inFlight = []
  · exact .inl ⟨he, hi.unheard he⟩
  · exact .inr fun S hS => hi.settled S hS (pending_eq_nil hq S) he

theorem pools_current_in_order_joined :
    let seed := (Service.empty.run (.register probe)).1
    let joined := (Service.empty.run (.mergeRemoteState (some seed.localState))).1
    let y : ServiceInstance := ⟨"y", "a", "g", 2, StrMap.empty⟩
    let n : Node := ⟨(joined.run (.register y)).1,
      Server.new.updateLoadBalancerBackends (fun _ => true) "a" [probe, y], [[]]⟩
    Reachable (fun _ => true) true n ∧ n.Quiescent ∧
      ((n.inFlight = [] ∧ n.server = Server.new) ∨
        ∀ S ∈ n.registry.services.keys, ∃ current, n.server.loadBalancers.get? S =
          some (.roundRobin (poolBackends (fun _ => true) (n.registry.getInstances S)) current)) := by
  intro seed joined y n
  have hj : joined.Reachable := .step (.mergeRemoteState _) .empty trivial
  have hr : Reachable (fun _ => true) true n :=
    .step (.step (.start hj) (.mutate _ (.register y) trivial ["a"] (by decide)))
      (.process _ [] [] ("a", [probe, y]) [] (by decide) fun _ _ h => absurd h (List.not_mem_nil _))
  have hq : n.Quiescent := by unfold Quiescent; decide
  exact ⟨hr, hq, pools_current_in_order _ n hr hq⟩

end Node

end InOrder

end FluxGate.Proxy
