import FluxGate.Cluster.Convergence
import FluxGate.Proxy.Forwarding

/-!
# A cluster of gateways

Each node of the cluster runs the whole gateway: its registry, which gossips with the others as
in `Cluster.Convergence`, and its proxy, fed by the listener its registry notifies, as in
`Proxy.Wiring`. A node's registry gossips from `discovery.New` on, its `Join` being an exchange
with the seed, but its listener is subscribed only by `Start`: until then the registry's changes
reach no one. A step of the cluster is a step of the registries, whose snapshot the listener of
the node that changed is then owed if it is subscribed, a node's `Start`, or a step of one
node's listener or proxy. Seen from the registries a run is a run of `Net`, and seen from any one
node a run of `Proxy.Node`.

Once nothing is in flight, neither a delta nor a listener call, every two nodes of a careful
cluster whose listeners take each service's calls in snapshot order and that hold a pool at all
hold pools for the same services, with the same backends up to their order. A node that joined
after a registration and has heard of no change since its `Start` holds no pool.
-/

namespace FluxGate

open Discovery Proxy

/-- A cluster of gateways: the registries and their delta channels, and at each node the
proxy, the calls its listener still owes, and whether `Start` has subscribed the listener. -/
structure Gateway (Node : Type) where
  net : Net Node
  server : Node → Server
  inFlight : Node → List (List Call)
  subscribed : Node → Bool

variable {Node : Type} [DecidableEq Node]

theorem registerDelta_inj {inst inst' : ServiceInstance}
    (h : Service.registerDelta inst = Service.registerDelta inst') : inst = inst' := by
  simp only [Service.registerDelta, Json.obj.injEq, List.cons.injEq, Prod.mk.injEq, true_and,
    and_true] at h
  simpa [decodeInstance_toJson] using congrArg (decodeInstance .zero) h

theorem registerDelta_ne_deregisterDelta (inst : ServiceInstance) (serviceID : String) :
    Service.registerDelta inst ≠ Service.deregisterDelta serviceID := by
  simp [Service.registerDelta, Service.deregisterDelta]

theorem mem_keys_notifyMsg_toJson {s : Service} {order : List String} {d : Delta} {svc : String → String}
    (hd : d.Fits svc) {k : String} :
    k ∈ (s.notifyMsg order (some d.toJson)).1.services.keys ↔
      k ∈ s.services.keys ∨ ∃ inst, d = .register inst ∧ k = inst.service := by
  cases d with
  | register inst =>
    rw [Service.notifyMsg_toJson_register hd.2, Service.keys_put]
    simp [or_comm]
  | deregister serviceID =>
    rw [Delta.toJson, Service.notifyMsg_deregisterDelta]
    cases hr : s.removeId serviceID order with
    | none => simp
    | some s' => simp [Service.mem_keys_removeId_iff hr]

namespace Net

variable {owner : String → Node} {svc : String → String}

/-- Node `m` holds the service name `k`, or a register delta for a service of that name, with a
port `float64` carries exactly, is on its way to `m`. -/
def Reaches (c : Net Node) (k : String) (m : Node) : Prop :=
  k ∈ (c.registry m).services.keys ∨ ∃ o inst, inst.service = k ∧ inst.port.toInt.natAbs < 2 ^ 53 ∧
    Service.registerDelta inst ∈ c.chan o m

/-- Every register delta in flight names a service its sender holds, and every service name
any node holds reaches every node. -/
structure NamesSpread (c : Net Node) : Prop where
  sent : ∀ o m inst, Service.registerDelta inst ∈ c.chan o m → inst.service ∈ (c.registry o).services.keys
  spread : ∀ n k, k ∈ (c.registry n).services.keys → ∀ m, Reaches c k m

omit [DecidableEq Node] in
theorem namesSpread_init : NamesSpread (init : Net Node) :=
  ⟨fun _ _ _ h => absurd h (List.not_mem_nil _), fun _ _ h => absurd h (List.not_mem_nil _)⟩

theorem Reaches.update {c : Net Node} {k : String} {m : Node} (h : Reaches c k m) {n : Node}
    {s' : Service} (hs' : ∀ k, k ∈ (c.registry n).services.keys → k ∈ s'.services.keys) (msgs : List Json) :
    Reaches (c.update n s' msgs) k m := by
  rcases h with hk | ⟨o, inst, hsvc, hport, hmem⟩
  · refine .inl ?_
    rw [registry_update]
    split
    · next e => exact hs' k (e ▸ hk)
    · exact hk
  · refine .inr ⟨o, inst, hsvc, hport, ?_⟩
    rw [chan_update]
    split
    · exact List.mem_append_left _ hmem
    · exact hmem

theorem Reaches.receive {c : Net Node} {k : String} {m : Node} (h : Reaches c k m) {src dst : Node}
    {msg : Json} {rest : List Json} (hchan : c.chan src dst = msg :: rest) {s' : Service}
    (hs' : ∀ k, k ∈ (c.registry dst).services.keys → k ∈ s'.services.keys)
    (hmsg : ∀ inst, msg = Service.registerDelta inst → inst.port.toInt.natAbs < 2 ^ 53 →
      inst.service ∈ s'.services.keys) :
    Reaches (c.receive src dst rest s') k m := by
  rcases h with hk | ⟨o, inst, rfl, hport, hmem⟩
  · refine .inl ?_
    rw [registry_receive]
    split
    · next e => exact hs' _ (e ▸ hk)
    · exact hk
  · by_cases hom : o = src ∧ m = dst
    · obtain ⟨rfl, rfl⟩ := hom
      rw [hchan] at hmem
      rcases List.mem_cons.mp hmem with he | hmem
      · exact .inl (by simpa using hmsg inst he.symm hport)
      · exact .inr ⟨o, inst, rfl, hport, by simpa using hmem⟩
    · exact .inr ⟨o, inst, rfl, hport, by simpa [hom] using hmem⟩

theorem NamesSpread.update {c : Net Node} (h : NamesSpread c) {n : Node} {s' : Service}
    {msgs : List Json} (hs' : ∀ k, k ∈ (c.registry n).services.keys → k ∈ s'.services.keys)
    (hsent : ∀ inst, Service.registerDelta inst ∈ msgs → inst.service ∈ s'.services.keys)
    (hnew : ∀ k, k ∈ s'.services.keys → (∃ y, k ∈ (c.registry y).services.keys) ∨
      ∃ inst, inst.service = k ∧ inst.port.toInt.natAbs < 2 ^ 53 ∧ Service.registerDelta inst ∈ msgs) :
    NamesSpread (c.update n s' msgs) := by
  have hold : ∀ y k, k ∈ (c.registry y).services.keys → ∀ m, Reaches (c.update n s' msgs) k m :=
    fun y k hk m => (h.spread y k hk m).update hs' msgs
  refine ⟨fun o m inst hmem => ?_, fun x k hk m => ?_⟩
  · rw [chan_update] at hmem
    rw [registry_update]
    split at hmem
    · next ho =>
      rw [if_pos ho.1]
      rcases List.mem_append.mp hmem with hmem | hmem
      · exact hs' _ (ho.1 ▸ h.sent o m inst hmem)
      · exact hsent inst hmem
    · split
      · next ho => exact hs' _ (ho ▸ h.sent o m inst hmem)
      · exact h.sent o m inst hmem
  · rw [registry_update] at hk
    split at hk
    · next hx =>
      rcases hnew k hk with ⟨y, hy⟩ | ⟨inst, rfl, hport, hmem⟩
      · exact hold y k hy m
      · by_cases hm : m = n
        · exact .inl (by simp [hm, hk])
        · exact .inr ⟨n, inst, rfl, hport, by simp [hm, hmem]⟩
    · exact hold x k hk m

theorem NamesSpread.receive {c : Net Node} (h : NamesSpread c) (hc : Converging owner svc c)
    {src dst : Node} {msg : Json} {rest : List Json} (hchan : c.chan src dst = msg :: rest)
    (order : List String) :
    NamesSpread (c.receive src dst rest ((c.registry dst).notifyMsg order (some msg)).1) := by
  obtain ⟨ds, hds, hs, -⟩ := hc.inFlight src dst
  obtain ⟨d, ds, rfl, rfl, -⟩ := List.map_eq_cons_iff.mp (hds.symm.trans hchan)
  have hd := (hs d (List.mem_cons_self _ _)).2
  have hs' : ∀ k, k ∈ (c.registry dst).services.keys →
      k ∈ ((c.registry dst).notifyMsg order (some d.toJson)).1.services.keys :=
    fun k hk => (mem_keys_notifyMsg_toJson hd).mpr (.inl hk)
  have hmsg : ∀ inst, d.toJson = Service.registerDelta inst → inst.port.toInt.natAbs < 2 ^ 53 →
      inst.service ∈ ((c.registry dst).notifyMsg order (some d.toJson)).1.services.keys := by
    intro inst he hport
    rw [he, show Service.registerDelta inst = (Delta.register inst).toJson from rfl,
      Service.notifyMsg_toJson_register hport, Service.keys_put]
    exact .inl rfl
  refine ⟨fun o m inst hmem => ?_, fun x k hk m => ?_⟩
  · have hold : Service.registerDelta inst ∈ c.chan o m := by
      rw [chan_receive] at hmem
      split at hmem
      · next hom => rw [hom.1, hom.2, hchan]; exact List.mem_cons_of_mem _ hmem
      · exact hmem
    rw [registry_receive]
    split
    · next ho => exact hs' _ (ho ▸ h.sent o m inst hold)
    · exact h.sent o m inst hold
  · rw [registry_receive] at hk
    split at hk
    · next hx =>
      rcases (mem_keys_notifyMsg_toJson hd).mp hk with hk | ⟨inst, rfl, rfl⟩
      · exact (h.spread dst k hk m).receive hchan hs' hmsg
      · exact (h.spread src _ (h.sent src dst inst (by rw [hchan]; exact List.mem_cons_self _ _)) m).receive
          hchan hs' hmsg
    · exact (h.spread x k hk m).receive hchan hs' hmsg

theorem NamesSpread.step {c c' : Net Node} (h : NamesSpread c) (hc : Converging owner svc c)
    (hs : Step owner svc true c c') : NamesSpread c' := by
  cases hs with
  | register n inst _ hcareful =>
    obtain ⟨-, hport⟩ := hcareful rfl
    refine h.update (fun k hk => (Service.keys_put _ _ _).mpr (.inr hk)) (fun inst' hmem => ?_)
      fun k hk => ?_
    · obtain rfl := registerDelta_inj (List.mem_singleton.mp hmem)
      exact (Service.keys_put _ _ _).mpr (.inl rfl)
    · rcases (Service.keys_put _ _ _).mp hk with rfl | hk
      · exact .inr ⟨inst, rfl, hport, List.mem_singleton_self _⟩
      · exact .inl ⟨n, hk⟩
  | deregister n order _ serviceID _ =>
    simp only [Service.run, Service.deregister]
    cases hr : (c.registry n).removeId serviceID order with
    | none => exact h.update (fun _ => id) (fun _ hmem => absurd hmem (List.not_mem_nil _)) fun k hk => .inl ⟨n, hk⟩
    | some s' =>
      refine h.update (fun k => (Service.mem_keys_removeId_iff hr).mpr) (fun inst hmem => ?_)
        fun k hk => .inl ⟨n, (Service.mem_keys_removeId_iff hr).mp hk⟩
      exact absurd (List.mem_singleton.mp hmem) (registerDelta_ne_deregisterDelta _ _)
  | deliver src dst msg rest hchan order _ => exact h.receive hc hchan order
  | exchange n m _ _ =>
    refine h.update (fun k hk => Service.mem_keys_mergeLocalState_iff.mpr (.inl hk))
      (fun _ hmem => absurd hmem (List.not_mem_nil _)) fun k hk => .inl ?_
    rcases Service.mem_keys_mergeLocalState_iff.mp hk with hk | hk
    · exact ⟨n, hk⟩
    · exact ⟨m, hk⟩

theorem Reachable.namesSpread {c : Net Node} (h : Reachable owner svc true c) : NamesSpread c := by
  induction h with
  | init => exact namesSpread_init
  | step hr hs ih => exact ih.step hr.converging hs

omit [DecidableEq Node] in
theorem NamesSpread.mem_keys {c : Net Node} (h : NamesSpread c) (hq : c.Quiescent) {n : Node}
    {k : String} (hk : k ∈ (c.registry n).services.keys) (m : Node) : k ∈ (c.registry m).services.keys :=
  (h.spread n k hk m).resolve_right fun ⟨o, _, _, _, hmem⟩ => absurd (hq o m ▸ hmem) (List.not_mem_nil _)

end Net

namespace Gateway

def node (g : Gateway Node) (n : Node) : Proxy.Node := ⟨g.net.registry n, g.server n, g.inFlight n⟩

def init : Gateway Node := ⟨Net.init, fun _ => Server.new, fun _ => [], fun _ => false⟩

/-- The registries are now `net'`, the one of node `n` having run `op`, and the listener of `n`,
if subscribed, is owed the calls of the snapshots `op` handed on, `range` visiting their
services in `order`. -/
def notify (g : Gateway Node) (net' : Net Node) (n : Node) (op : Service.Op) (order : List String) :
    Gateway Node :=
  ⟨net', g.server, Function.update g.inFlight n (g.inFlight n ++
    if g.subscribed n then (snapshots ((g.net.registry n).run op).2).map (snapshotCalls · order) else []),
    g.subscribed⟩

def setProxy (g : Gateway Node) (n : Node) (server : Server) (calls : List (List Call)) : Gateway Node :=
  ⟨g.net, Function.update g.server n server, Function.update g.inFlight n calls, g.subscribed⟩

section Steps

variable (owner : String → Node) (svc : String → String) (careful inOrder : Bool)
  (urlParses : String → Bool)

/-- The steps of the cluster: the four steps of `Net`, each owing its snapshot to the listener
of the node whose registry changed, a node's `Start`, and the listener and request steps of any
one node, requests being served only once `Start` has run. -/
inductive Step : Gateway Node → Gateway Node → Prop
  | register (g : Gateway Node) (n : Node) (inst : ServiceInstance) (hown : owner inst.id = n)
      (hcareful : careful = true → inst.service = svc inst.id ∧ inst.port.toInt.natAbs < 2 ^ 53)
      (order : List String)
      (horder : ∀ services ∈ snapshots ((g.net.registry n).run (.register inst)).2, order.Perm services.keys) :
      Step g (g.notify (g.net.update n ((g.net.registry n).run (.register inst)).1
        (queued ((g.net.registry n).run (.register inst)).2)) n (.register inst) order)
  | deregister (g : Gateway Node) (n : Node) (scan : List String)
      (hscan : scan.Perm (g.net.registry n).services.keys) (serviceID : String) (hown : owner serviceID = n)
      (order : List String)
      (horder : ∀ services ∈ snapshots ((g.net.registry n).run (.deregister scan serviceID)).2,
        order.Perm services.keys) :
      Step g (g.notify (g.net.update n ((g.net.registry n).run (.deregister scan serviceID)).1
        (queued ((g.net.registry n).run (.deregister scan serviceID)).2)) n (.deregister scan serviceID) order)
  | deliver (g : Gateway Node) (src dst : Node) (msg : Json) (rest : List Json)
      (hchan : g.net.chan src dst = msg :: rest) (scan : List String)
      (hscan : scan.Perm (g.net.registry dst).services.keys) (order : List String)
      (horder : ∀ services ∈ snapshots ((g.net.registry dst).run (.notifyMsg scan (some msg))).2,
        order.Perm services.keys) :
      Step g (g.notify (g.net.receive src dst rest ((g.net.registry dst).notifyMsg scan (some msg)).1) dst
        (.notifyMsg scan (some msg)) order)
  | exchange (g : Gateway Node) (n m : Node) (hnm : n ≠ m)
      (hcareful : careful = true → ∀ o, g.net.chan o m = []) (order : List String)
      (horder : ∀ services ∈ snapshots ((g.net.registry n).run
        (.mergeRemoteState (some (g.net.registry m).localState))).2, order.Perm services.keys) :
      Step g (g.notify (g.net.update n ((g.net.registry n).mergeRemoteState
        (some (g.net.registry m).localState)).1 []) n (.mergeRemoteState (some (g.net.registry m).localState)) order)
  | start (g : Gateway Node) (n : Node) (h : g.subscribed n = false) :
      Step g ⟨g.net, g.server, g.inFlight, Function.update g.subscribed n true⟩
  | process (g : Gateway Node) (n : Node) (pre post : List (List Call)) (c : Call) (rest : List Call)
      (h : g.inFlight n = pre ++ (c :: rest) :: post)
      (hfifo : inOrder = true → ∀ l ∈ pre, ∀ c' ∈ l, c'.1 ≠ c.1) :
      Step g (g.setProxy n ((g.server n).updateLoadBalancerBackends urlParses c.1 c.2) (pre ++ rest :: post))
  | request (g : Gateway Node) (n : Node) (h : g.subscribed n = true) (req : Request) :
      Step g (g.setProxy n ((g.server n).handleRequest req).2 (g.inFlight n))

inductive Reachable : Gateway Node → Prop
  | init : Reachable init
  | step {g g' : Gateway Node} : Reachable g → Step owner svc careful inOrder urlParses g g' → Reachable g'

end Steps

variable {owner : String → Node} {svc : String → String} {careful inOrder : Bool}
  {urlParses : String → Bool}

theorem Step.net {g g' : Gateway Node} (hs : Step owner svc careful inOrder urlParses g g') :
    Net.Step owner svc careful g.net g'.net ∨ g'.net = g.net := by
  cases hs with
  | register n inst hown hcareful => exact .inl (.register _ n inst hown hcareful)
  | deregister n scan hscan serviceID hown => exact .inl (.deregister _ n scan hscan serviceID hown)
  | deliver src dst msg rest hchan scan hscan => exact .inl (.deliver _ src dst msg rest hchan scan hscan)
  | exchange n m hnm hcareful => exact .inl (.exchange _ n m hnm hcareful)
  | start => exact .inr rfl
  | process => exact .inr rfl
  | request => exact .inr rfl

theorem Reachable.net {g : Gateway Node} (h : Reachable owner svc careful inOrder urlParses g) :
    Net.Reachable owner svc careful g.net := by
  induction h with
  | init => exact .init
  | step _ hs ih => exact (hs.net).elim ih.step (· ▸ ih)

variable (urlParses inOrder) in
/-- What a run leaves at node `k`: a state of `Proxy.Node`, and, before `Start`, the proxy as
`New` made it, no call owed, and a registry gossip alone has reached. -/
structure NodeOk (g : Gateway Node) (k : Node) : Prop where
  reachable : Proxy.Node.Reachable urlParses inOrder (g.node k)
  unsubscribed : g.subscribed k = false →
    g.server k = Server.new ∧ g.inFlight k = [] ∧ (g.net.registry k).Reachable

/-- A step of the registries that runs `op` at `n` is, at node `n`, the mutation `op` of that
node once `Start` has subscribed its listener, and a change no one hears of before. -/
theorem NodeOk.notify {g : Gateway Node} {k : Node} (hk : g.NodeOk inOrder urlParses k)
    {net' : Net Node} {n : Node} {op : Service.Op} {order : List String}
    (hreg : ∀ k, net'.registry k = if k = n then ((g.net.registry n).run op).1 else g.net.registry k)
    (hop : op.Admissible (g.net.registry n))
    (horder : ∀ services ∈ snapshots ((g.net.registry n).run op).2, order.Perm services.keys) :
    (g.notify net' n op order).NodeOk inOrder urlParses k := by
  by_cases hkn : k = n
  · subst hkn
    cases hs : g.subscribed k
    · obtain ⟨hserver, hcalls, hr⟩ := hk.unsubscribed hs
      have hr' := hr.step op hop
      have he : (g.notify net' k op order).node k = ⟨((g.net.registry k).run op).1, Server.new, []⟩ := by
        simp [Gateway.notify, node, hreg, hs, hserver, hcalls]
      exact ⟨he ▸ .start hr', fun _ => by simpa [Gateway.notify, hreg, hs, hserver, hcalls] using hr'⟩
    · have he : (g.notify net' k op order).node k = ⟨((g.node k).registry.run op).1, (g.node k).server,
          (g.node k).inFlight ++ (snapshots ((g.node k).registry.run op).2).map (snapshotCalls · order)⟩ := by
        simp [Gateway.notify, node, hreg, hs]
      exact ⟨he ▸ hk.reachable.step (.mutate _ op hop order horder), fun h => absurd h (by simp [Gateway.notify, hs])⟩
  · have he : (g.notify net' n op order).node k = g.node k := by simp [Gateway.notify, node, hreg, hkn]
    exact ⟨he ▸ hk.reachable, fun h => by simpa [Gateway.notify, hreg, hkn] using hk.unsubscribed h⟩

theorem node_setProxy (g : Gateway Node) (n k : Node) (server : Server) (calls : List (List Call)) :
    (g.setProxy n server calls).node k = if k = n then ⟨g.net.registry n, server, calls⟩ else g.node k := by
  by_cases hk : k = n
  · subst hk; simp [setProxy, node]
  · simp [setProxy, node, hk]

theorem NodeOk.setProxy {g : Gateway Node} {k n : Node} (hk : g.NodeOk inOrder urlParses k)
    {server : Server} {calls : List (List Call)}
    (hstep : k = n → g.subscribed n = true ∧
      Proxy.Node.Step urlParses inOrder (g.node n) ⟨g.net.registry n, server, calls⟩) :
    (g.setProxy n server calls).NodeOk inOrder urlParses k := by
  by_cases hkn : k = n
  · subst hkn
    obtain ⟨hs, hst⟩ := hstep rfl
    exact ⟨by rw [node_setProxy, if_pos rfl]; exact hk.reachable.step hst,
      fun h => absurd (hs.symm.trans h) Bool.noConfusion⟩
  · exact ⟨by rw [node_setProxy, if_neg hkn]; exact hk.reachable,
      fun h => by simpa [Gateway.setProxy, hkn] using hk.unsubscribed h⟩

theorem NodeOk.step {g g' : Gateway Node} (h : ∀ k, g.NodeOk inOrder urlParses k)
    (hs : Step owner svc careful inOrder urlParses g g') (k : Node) : g'.NodeOk inOrder urlParses k := by
  cases hs with
  | register n inst _ _ order horder => exact (h k).notify (Net.registry_update _ _ _ _) trivial horder
  | deregister n scan hscan serviceID _ order horder =>
    exact (h k).notify (Net.registry_update _ _ _ _) hscan horder
  | deliver src dst msg rest _ scan hscan order horder =>
    exact (h k).notify (Net.registry_receive _ _ _ _ _) hscan horder
  | exchange n m _ _ order horder => exact (h k).notify (Net.registry_update _ _ _ _) trivial horder
  | start n _ =>
    refine ⟨(h k).reachable, fun hs => (h k).unsubscribed ?_⟩
    by_cases hkn : k = n
    · subst hkn; simp at hs
    · simpa [hkn] using hs
  | process n pre post c rest hin hfifo =>
    refine (h k).setProxy fun hkn => ⟨?_, .process _ pre post c rest hin hfifo⟩
    subst hkn
    cases hs : g.subscribed k
    · simp [((h k).unsubscribed hs).2.1] at hin
    · rfl
  | request n hsub req => exact (h k).setProxy fun _ => ⟨hsub, .request _ req⟩

theorem Reachable.nodeOk {g : Gateway Node} (h : Reachable owner svc careful inOrder urlParses g) (k : Node) :
    g.NodeOk inOrder urlParses k := by
  induction h generalizing k with
  | init => exact ⟨.start .empty, fun _ => ⟨rfl, rfl, .empty⟩⟩
  | step _ hs ih => exact NodeOk.step ih hs k

/-- Once no delta and no listener call is in flight, every two nodes of a careful cluster whose
listeners take each service's calls in snapshot order, and which hold a pool at all, hold pools
for the same services, with the same backends up to their order. -/
theorem pools_agree_at_rest (g : Gateway Node) (h : Reachable owner svc true true urlParses g)
    (hq : g.net.Quiescent) (hrest : ∀ n, (g.node n).Quiescent) (n m : Node) (S : String)
    (lb : LoadBalancer) (hlb : (g.server n).loadBalancers.get? S = some lb)
    (hm : (g.server m).loadBalancers.keys ≠ []) :
    ∃ lb', (g.server m).loadBalancers.get? S = some lb' ∧ lb.backends.Perm lb'.backends := by
  have hnet := h.net
  have hS : S ∈ (g.server n).loadBalancers.keys := (GoMap.get?_isSome_iff _ _).mp (by simp [hlb])
  have hSn : S ∈ (g.net.registry n).services.keys := (h.nodeOk n).reachable.tracked.pools S hS
  have hSm := hnet.namesSpread.mem_keys hq hSn m
  have hi₁ := Proxy.Node.reachable_inOrder urlParses (h.nodeOk n).reachable
  have hi₂ := Proxy.Node.reachable_inOrder urlParses (h.nodeOk m).reachable
  obtain ⟨c₁, h₁⟩ := hi₁.settled S hSn (Proxy.Node.pending_eq_nil (hrest n) S)
    (hi₁.inFlight_ne_nil (List.ne_nil_of_mem hS))
  obtain ⟨c₂, h₂⟩ := hi₂.settled S hSm (Proxy.Node.pending_eq_nil (hrest m) S) (hi₂.inFlight_ne_nil hm)
  obtain rfl : lb = _ := Option.some.inj (hlb.symm.trans h₁)
  exact ⟨_, h₂, (hnet.converging.getInstances_perm hq n m S).filterMap _⟩

set_option maxRecDepth 2000 in
theorem pools_agree_at_rest_registered :
    ∃ (g : Gateway Bool) (lb : LoadBalancer),
      Reachable (fun _ => true) (fun _ => "s") true true (fun _ => true) g ∧ g.net.Quiescent ∧
      (∀ n, (g.node n).Quiescent) ∧ (g.server true).loadBalancers.get? "s" = some lb ∧
      (g.server false).loadBalancers.keys ≠ [] ∧
      ∃ lb', (g.server false).loadBalancers.get? "s" = some lb' ∧ lb.backends.Perm lb'.backends := by
  have hr : Reachable (fun _ => true) (fun _ => "s") true true (fun _ => true) _ :=
    .step (.step (.step (.step (.step (.step .init (.start _ true rfl)) (.start _ false rfl))
      (.register _ true ⟨"i", "s", "h", 1, StrMap.empty⟩ rfl (fun _ => ⟨rfl, by decide⟩) ["s"] (by decide)))
      (.deliver _ true false _ [] rfl [] (by exact .refl _) ["s"] (by decide)))
      (.process _ true [] [] _ [] rfl fun _ _ h => absurd h (List.not_mem_nil _)))
      (.process _ false [] [] ("s", [⟨"i", "s", "h", 1, StrMap.empty⟩]) [] (by decide)
        fun _ _ h => absurd h (List.not_mem_nil _))
  refine ⟨_, _, hr, ?hq, ?hrest, rfl, ?hm, pools_agree_at_rest _ hr ?hq ?hrest true false "s" _ rfl ?hm⟩
  case hq => intro a b; cases a <;> cases b <;> rfl
  case hrest => intro n; unfold Proxy.Node.Quiescent; cases n <;> decide
  case hm => decide

end Gateway

end FluxGate
