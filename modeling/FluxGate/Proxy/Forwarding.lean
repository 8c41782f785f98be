import FluxGate.Proxy.Wiring
import FluxGate.Discovery.WellFormed

/-!
# Where a request goes

The registry never drops a service name, so every call the listener owes and every pool the
proxy holds is for a service of the registry; a node started with `-join` holds the seed's
services before any of them has a pool. At rest, with the listener taking each service's calls
in snapshot order, a request that matches no route gets `404`, and one that matches gets `503`
when none of the current instances of the route's service has a URL that parses, and otherwise a
forward, with the rewritten path, to the backend of one of them.
-/

namespace FluxGate.Discovery.Service

variable {s : Service} {k : String}

theorem mem_keys_foldl_mergeService_iff (entries : List (String × Option (List ServiceInstance))) :
    k ∈ (entries.foldl (fun s e => s.mergeService e.1 e.2) s).services.keys ↔
      k ∈ s.services.keys ∨ k ∈ entries.map Prod.fst := by
  induction entries generalizing s with
  | nil => simp
  | cons e es ih =>
    have he : k ∈ (s.mergeService e.1 e.2).services.keys ↔ k = e.1 ∨ k ∈ s.services.keys := by
      unfold mergeService
      split <;> simp
    rw [List.foldl_cons, ih, he, List.map_cons, List.mem_cons, or_assoc, or_left_comm]

theorem mem_keys_mergeLocalState_iff {t : Service} :
    k ∈ (s.mergeRemoteState (some t.localState)).1.services.keys ↔
      k ∈ s.services.keys ∨ k ∈ t.services.keys := by
  simp only [mergeRemoteState, decodeServices_localState]
  exact mem_keys_foldl_mergeService_iff _

theorem mem_keys_removeId_iff {serviceID : String} {order : List String} {s' : Service}
    (hr : s.removeId serviceID order = some s') : k ∈ s'.services.keys ↔ k ∈ s.services.keys := by
  obtain ⟨-, k', -, l, -, -, hl, rfl⟩ := removeId_eq_some hr
  obtain ⟨a, y, b, hab, -⟩ := dropId_eq_some hl
  have hk' : k' ∈ s.services.keys := by
    refine (GoMap.get?_isSome_iff _ _).mp ?_
    cases h : s.services.get? k' with
    | none => simp [getInstances, lookup, h] at hab
    | some v => rfl
  rw [GoMap.mem_keys_insert]
  exact ⟨fun h => h.elim (· ▸ hk') id, .inr⟩

theorem mem_keys_run (hk : k ∈ s.services.keys) (op : Op) : k ∈ (s.run op).1.services.keys := by
  have hremove : ∀ {serviceID order s'}, s.removeId serviceID order = some s' → k ∈ s'.services.keys :=
    fun hr => (mem_keys_removeId_iff hr).mpr hk
  cases op with
  | register inst => simp [run, register, hk]
  | deregister order serviceID =>
    simp only [run, deregister]
    cases hr : s.removeId serviceID order
    · exact hk
    · exact hremove hr
  | notifyMsg order msg =>
    simp only [run, notifyMsg]
    repeat' split
    all_goals first
      | exact hk
      | next hm =>
        rcases applyMessage_eq_some hm with ⟨inst, rfl⟩ | ⟨_, hr⟩
        · simp [hk]
        · exact hremove hr
  | mergeRemoteState buf =>
    simp only [run, mergeRemoteState]
    repeat' split
    all_goals first
      | exact hk
      | exact (mem_keys_foldl_mergeService_iff _).mpr (.inl hk)

end FluxGate.Discovery.Service

namespace FluxGate.Proxy

open Discovery

theorem mem_poolBackends {urlParses : String → Bool} {instances : List ServiceInstance} {b : Backend} :
    b ∈ poolBackends urlParses instances ↔
      ∃ inst ∈ instances, urlParses (backendURL inst) = true ∧
        b = ⟨backendURL inst, instanceWeight inst, true, 0⟩ := by
  simp only [poolBackends, List.mem_filterMap]
  constructor
  · rintro ⟨inst, hi, hb⟩
    split at hb
    · exact ⟨inst, hi, ‹_›, (Option.some.inj hb).symm⟩
    · cases hb
  · rintro ⟨inst, hi, hp, rfl⟩
    exact ⟨inst, hi, by simp [hp]⟩

namespace Node

variable {urlParses : String → Bool} {inOrder : Bool}

/-- Every call in flight, and every pool, is for a service of the registry. -/
structure Tracked (n : Node) : Prop where
  calls : ∀ l ∈ n.inFlight, ∀ c ∈ l, c.1 ∈ n.registry.services.keys
  pools : ∀ S ∈ n.server.loadBalancers.keys, S ∈ n.registry.services.keys

theorem Tracked.step {n n' : Node} (h : n.Tracked) (hs : Step urlParses inOrder n n') : n'.Tracked := by
  cases hs with
  | mutate op _ order horder =>
    refine ⟨fun l hl c hc => ?_, fun S hS => Service.mem_keys_run (h.pools S hS) op⟩
    rcases List.mem_append.mp hl with hl | hl
    · exact Service.mem_keys_run (h.calls l hl c hc) op
    · obtain ⟨services, hsv, rfl⟩ := List.mem_map.mp hl
      obtain ⟨k, hk, rfl⟩ := List.mem_map.mp hc
      have hk' := (horder services hsv).mem_iff.mp hk
      rcases snapshots_run n.registry op with ⟨he, -⟩ | he
      · simp [he] at hsv
      · rw [he, List.mem_singleton] at hsv
        subst hsv
        simpa [Service.getAllServices] using hk'
  | process pre post c rest hin _ =>
    have hc : c.1 ∈ n.registry.services.keys :=
      h.calls (c :: rest) (by rw [hin]; simp) c (List.mem_cons_self _ _)
    refine ⟨fun l hl c' hc' => ?_, fun S hS => ?_⟩
    · rcases List.mem_append.mp hl with hl | hl
      · exact h.calls l (hin ▸ List.mem_append_left _ hl) c' hc'
      · rcases List.mem_cons.mp hl with rfl | hl
        · exact h.calls (c :: l) (by rw [hin]; simp) c' (List.mem_cons_of_mem _ hc')
        · exact h.calls l (by rw [hin]; simp [hl]) c' hc'
    · rw [Server.keys_updateLoadBalancerBackends] at hS
      split at hS
      · exact h.pools S hS
      · rcases List.mem_append.mp hS with hS | hS
        · exact h.pools S hS
        · exact List.mem_singleton.mp hS ▸ hc
  | request req => exact ⟨h.calls, (Server.keys_handleRequest n.server req).1 ▸ h.pools⟩

theorem Reachable.tracked {n : Node} (h : Reachable urlParses inOrder n) : n.Tracked := by
  induction h with
  | start _ => exact ⟨fun _ h => absurd h (List.not_mem_nil _), fun _ h => absurd h (List.not_mem_nil _)⟩
  | step _ hs ih => exact ih.step hs

theorem Reachable.server {n : Node} (h : Reachable urlParses inOrder n) :
    Server.Reachable urlParses n.server := by
  induction h with
  | start _ => exact .new
  | step _ hs ih =>
    cases hs with
    | mutate => exact ih
    | process _ _ c _ _ _ => exact .update c.1 c.2 ih
    | request req => exact .request req ih

/-- A node started with `-join` holds every service of the seed and, until a change of its
registry reaches the listener, no pool for any of them. -/
theorem joined_without_pools (seed : Service) :
    let n : Node := ⟨(Service.empty.run (.mergeRemoteState (some seed.localState))).1, Server.new, []⟩
    Reachable urlParses inOrder n ∧ n.Quiescent ∧
      ∀ S ∈ seed.services.keys, S ∈ n.registry.services.keys ∧ n.server.loadBalancers.get? S = none :=
  ⟨.start (.step (.mergeRemoteState _) .empty trivial), fun _ h => absurd h (List.not_mem_nil _),
    fun _ hS => ⟨Service.mem_keys_mergeLocalState_iff.mpr (.inr hS), by simp [Server.new]⟩⟩

/-- At rest, with the calls of each service taken in snapshot order: `404` when no route
matches; for the service of the matched route, `503` when none of its current instances has a
URL that parses, and otherwise a forward to the backend of one of them with the path
rewritten. Which route matches depends on the order the pools were made in. -/
theorem handleRequest_at_rest (n : Node) (h : Reachable urlParses true n) (hq : n.Quiescent)
    (req : Request) :
    match n.server.router.«match» req with
    | none => (n.server.handleRequest req).1 = .error 404 "No route found"
    | some route =>
      ((∀ inst ∈ n.registry.getInstances route.serviceName, urlParses (backendURL inst) = false) ∧
        (n.server.handleRequest req).1 = .error 503 "No healthy backends") ∨
      ∃ inst ∈ n.registry.getInstances route.serviceName, urlParses (backendURL inst) = true ∧
        (n.server.handleRequest req).1 =
          .forward ⟨backendURL inst, instanceWeight inst, true, 0⟩ (rewritePath req.path route.serviceName) := by
  split
  · next hm => simp [Server.handleRequest, hm]
  · next route hm =>
    have hroute : route ∈ n.server.loadBalancers.keys.map Server.serviceRoute :=
      Server.routes_eq_keys urlParses h.server ▸ List.mem_of_find?_eq_some hm
    obtain ⟨S, hS, rfl⟩ := List.mem_map.mp hroute
    have hi := reachable_inOrder urlParses h
    obtain ⟨current, hlb⟩ := hi.settled S (h.tracked.pools S hS) (pending_eq_nil hq S)
      (hi.inFlight_ne_nil (List.ne_nil_of_mem hS))
    simp only [Server.handleRequest, hm, Server.serviceRoute, hlb, LoadBalancer.next]
    cases hn : (RoundRobin.next (poolBackends urlParses (n.registry.getInstances S)) current).1 with
    | none =>
      refine .inl ⟨fun inst hi => ?_, rfl⟩
      cases hp : urlParses (backendURL inst)
      · rfl
      · simpa using (RoundRobin.next_eq_none_iff _ _).mp hn _ (mem_poolBackends.mpr ⟨inst, hi, hp, rfl⟩)
    | some b =>
      obtain ⟨inst, hi, hp, rfl⟩ := mem_poolBackends.mp (RoundRobin.mem_of_next hn).1
      exact .inr ⟨inst, hi, hp, rfl⟩

theorem handleRequest_at_rest_registered :
    let inst : ServiceInstance := ⟨"i", "s", "h", 1, StrMap.empty⟩
    let n : Node := ⟨(Service.empty.run (.register inst)).1,
      Server.new.updateLoadBalancerBackends (fun _ => true) "s" [inst], [[]]⟩
    Reachable (fun _ => true) true n ∧ n.Quiescent ∧
      n.server.router.«match» ⟨"/s/x", "GET"⟩ = some (Server.serviceRoute "s") ∧
      ∃ inst ∈ n.registry.getInstances "s", (n.server.handleRequest ⟨"/s/x", "GET"⟩).1 =
        .forward ⟨backendURL inst, instanceWeight inst, true, 0⟩ (rewritePath "/s/x" "s") := by
  intro inst n
  have hr : Reachable (fun _ => true) true n :=
    .step (.step (.start .empty) (.mutate _ (.register inst) trivial ["s"] (by decide)))
      (.process _ [] [] _ [] rfl fun _ _ h => absurd h (List.not_mem_nil _))
  have hq : n.Quiescent := by unfold Quiescent; decide
  have hm : n.server.router.«match» ⟨"/s/x", "GET"⟩ = some (Server.serviceRoute "s") := by decide
  have key := handleRequest_at_rest n hr hq ⟨"/s/x", "GET"⟩
  rw [hm] at key
  obtain ⟨i, hi, -, hf⟩ := key.resolve_left fun h => Bool.noConfusion (h.1 inst (by decide))
  exact ⟨hr, hq, hm, i, hi, hf⟩

end Node

end FluxGate.Proxy
