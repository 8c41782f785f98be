import FluxGate.Proxy.Server

/-!
# Routes and pools over every run of the proxy

A run of the proxy is any sequence of `updateLoadBalancerBackends` calls, with any service
names and instance lists and in any order, and of requests. The route table stays the list of
the routes `/S/*` of the pooled services, in the order their pools were created, so a matched
route always has a pool. First-fit matching then serves every service at its own prefix as
long as no service name holds a `/`: a name `a/b` is shadowed by an earlier `a`.
-/

namespace FluxGate.Proxy

open Discovery

namespace Server

variable (urlParses : String → Bool)

/-- The states of the proxy: from `New`, any snapshot call and any request. -/
inductive Reachable : Server → Prop
  | new : Reachable new
  | update {s : Server} (serviceName : String) (instances : List ServiceInstance) :
      Reachable s → Reachable (s.updateLoadBalancerBackends urlParses serviceName instances)
  | request {s : Server} (req : Request) : Reachable s → Reachable (s.handleRequest req).2

theorem keys_handleRequest (s : Server) (req : Request) :
    (s.handleRequest req).2.loadBalancers.keys = s.loadBalancers.keys ∧
      (s.handleRequest req).2.router = s.router := by
  rcases handleRequest_state s req with h | ⟨k, lb, hk, h⟩ <;> rw [h]
  · exact ⟨rfl, rfl⟩
  · have : k ∈ s.loadBalancers.keys := (GoMap.get?_isSome_iff _ _).mp (by simp [hk])
    simp [GoMap.keys_insert, this]

theorem routes_eq_keys {s : Server} (h : Reachable urlParses s) :
    s.router.routes = s.loadBalancers.keys.map serviceRoute := by
  induction h with
  | new => rfl
  | update serviceName instances _ ih =>
    rw [routes_updateLoadBalancerBackends, keys_updateLoadBalancerBackends]
    split <;> simp [ih]
  | request req _ ih => rw [(keys_handleRequest _ _).1, (keys_handleRequest _ _).2, ih]

/-- The route table and the pools stay in lockstep: one route per pooled service, and a pool
for every route. So a request that matches a route never meets the `500`: it gets the `503` when
the pool's `Next` finds no backend, and is forwarded to the backend it returns otherwise. -/
theorem routes_match_pools (s : Server) (h : Reachable urlParses s) :
    (s.router.routes.map (·.serviceName)).Nodup ∧
    (∀ k, k ∈ s.router.routes.map (·.serviceName) ↔ k ∈ s.loadBalancers.keys) ∧
    ∀ req route, s.router.«match» req = some route →
      ∃ lb, s.loadBalancers.get? route.serviceName = some lb ∧
        (lb.next.1 = none ∧ (s.handleRequest req).1 = .error 503 "No healthy backends" ∨
          ∃ backend, lb.next.1 = some backend ∧
            (s.handleRequest req).1 = .forward backend (rewritePath req.path route.serviceName)) := by
  have hnames : s.router.routes.map (·.serviceName) = s.loadBalancers.keys := by
    rw [routes_eq_keys urlParses h, List.map_map]
    exact List.map_id _
  refine ⟨hnames ▸ s.loadBalancers.nodup, fun k => by rw [hnames], fun req route hm => ?_⟩
  have hmem : route.serviceName ∈ s.loadBalancers.keys :=
    hnames ▸ List.mem_map_of_mem _ (List.mem_of_find?_eq_some hm)
  obtain ⟨lb, hlb⟩ := Option.isSome_iff_exists.mp ((GoMap.get?_isSome_iff _ _).mpr hmem)
  refine ⟨lb, hlb, ?_⟩
  simp only [handleRequest, hm, hlb]
  cases lb.next.1 with
  | none => exact .inl ⟨rfl, rfl⟩
  | some backend => exact .inr ⟨backend, rfl, rfl⟩

theorem routes_match_pools_two :
    let s := (new.updateLoadBalancerBackends (fun _ => true) "a" [⟨"i", "a", "h", 1, StrMap.empty⟩]).updateLoadBalancerBackends
      (fun _ => true) "b" []
    Reachable (fun _ => true) s ∧
    ((s.router.routes.map (·.serviceName)).Nodup ∧
    (∀ k, k ∈ s.router.routes.map (·.serviceName) ↔ k ∈ s.loadBalancers.keys) ∧
    ∀ req route, s.router.«match» req = some route →
      ∃ lb, s.loadBalancers.get? route.serviceName = some lb ∧
        (lb.next.1 = none ∧ (s.handleRequest req).1 = .error 503 "No healthy backends" ∨
          ∃ backend, lb.next.1 = some backend ∧
            (s.handleRequest req).1 = .forward backend (rewritePath req.path route.serviceName))) :=
  have h : Reachable (fun _ => true)
      ((new.updateLoadBalancerBackends (fun _ => true) "a" [⟨"i", "a", "h", 1, StrMap.empty⟩]).updateLoadBalancerBackends
        (fun _ => true) "b" []) := .update _ _ (.update _ _ .new)
  ⟨h, routes_match_pools _ _ h⟩

/-- A path `/S`, `/S/`, or one beginning with `/S/`. -/
def AtPrefix (serviceName path : String) : Prop :=
  path = "/" ++ serviceName ∨ path = "/" ++ serviceName ++ "/" ∨
    hasPrefix path ("/" ++ serviceName ++ "/") = true

private theorem data_slash (s : String) : ("/" ++ s).data = '/' :: s.data := rfl

private theorem data_slash_slash (s : String) : ("/" ++ s ++ "/").data = '/' :: (s.data ++ ['/']) := by
  simp [String.data_append, show ("/" : String).data = ['/'] from rfl]

theorem atPrefix_iff {serviceName path : String} :
    AtPrefix serviceName path ↔
      path.data = '/' :: serviceName.data ∨ ∃ x, path.data = '/' :: (serviceName.data ++ '/' :: x) := by
  simp only [AtPrefix, hasPrefix_iff, String.ext_iff, data_slash, data_slash_slash, List.IsPrefix]
  constructor
  · rintro (h | h | ⟨x, hx⟩)
    · exact .inl h
    · exact .inr ⟨[], by simpa using h⟩
    · exact .inr ⟨x, by simpa using hx.symm⟩
  · rintro (h | ⟨x, hx⟩)
    · exact .inl h
    · exact .inr (.inr ⟨x, by simpa using hx.symm⟩)

private theorem eq_of_slash_prefix {t s x : List Char} (ht : '/' ∉ t) (hs : '/' ∉ s)
    (h : t ++ ['/'] <+: s ++ '/' :: x) : t = s := by
  induction t generalizing s with
  | nil =>
    cases s with
    | nil => rfl
    | cons c s => exact absurd ((List.cons_prefix_cons.mp h).1 ▸ List.mem_cons_self _ _) hs
  | cons a t ih =>
    cases s with
    | nil => exact absurd ((List.cons_prefix_cons.mp h).1 ▸ List.mem_cons_self _ _) ht
    | cons c s =>
      obtain ⟨rfl, h'⟩ := List.cons_prefix_cons.mp h
      rw [ih (fun h' => ht (List.mem_cons_of_mem _ h')) (fun h' => hs (List.mem_cons_of_mem _ h')) h']

theorem matchPath_atPrefix {serviceName other path : String} (hs : '/' ∉ serviceName.data)
    (ho : '/' ∉ other.data) (hp : AtPrefix serviceName path) :
    Router.matchPath path ("/" ++ other ++ "/*") = true ↔ other = serviceName := by
  rw [Router.matchPath_wildcard, Bool.or_eq_true, beq_iff_eq, hasPrefix_iff, String.ext_iff,
    String.ext_iff, data_slash, data_slash_slash]
  rcases atPrefix_iff.mp hp with h | ⟨x, h⟩ <;> rw [h]
  · refine ⟨fun h' => ?_, fun h' => .inl (by rw [h'])⟩
    rcases h' with h' | ⟨y, hy⟩
    · exact (List.cons.inj h').2.symm
    · simp only [List.cons_append, List.cons.injEq, true_and, List.append_assoc] at hy
      exact absurd (hy ▸ by simp) hs
  · refine ⟨fun h' => ?_, fun h' => .inr ⟨x, by simp [h']⟩⟩
    rcases h' with h' | h'
    · exact absurd ((List.cons.inj h').2 ▸ by simp) ho
    · exact eq_of_slash_prefix ho hs ((List.prefix_cons_inj _).mp h')

theorem matchMethod_serviceMethods {method : String} (hm : method ∈ serviceMethods) :
    Router.matchMethod method serviceMethods = true := by
  simp only [Router.matchMethod, Bool.or_eq_true, List.any_eq_true]
  exact .inr ⟨method, hm, equalFold_refl method⟩

/-- When no pooled service name holds a `/`, every pooled service is served at its own prefix,
for every method its route admits. -/
theorem served_at_own_prefix (s : Server) (h : Reachable urlParses s)
    (hslash : ∀ k ∈ s.loadBalancers.keys, '/' ∉ k.data) (serviceName : String)
    (hS : serviceName ∈ s.loadBalancers.keys) (method : String) (hm : method ∈ serviceMethods)
    (path : String) (hp : AtPrefix serviceName path) :
    ∃ route, s.router.«match» ⟨path, method⟩ = some route ∧ route.serviceName = serviceName := by
  obtain ⟨pre, post, hkeys⟩ := List.append_of_mem hS
  have hpre : serviceName ∉ pre := by
    have := s.loadBalancers.nodup
    rw [GoMap.keys] at hkeys
    rw [hkeys] at this
    exact fun h' => (List.nodup_middle.mp this).not_mem (List.mem_append_left _ h')
  refine ⟨serviceRoute serviceName, (Router.match_eq_some_iff _ _ _).mpr
    ⟨pre.map serviceRoute, post.map serviceRoute, by simp [routes_eq_keys urlParses h, hkeys], ?_, ?_⟩, rfl⟩
  · simp [serviceRoute, (matchPath_atPrefix (hslash _ hS) (hslash _ hS) hp).mpr rfl,
      matchMethod_serviceMethods hm]
  · simp only [List.mem_map, forall_exists_index, and_imp]
    rintro _ other ho rfl
    have hk : other ∈ s.loadBalancers.keys := hkeys ▸ List.mem_append_left _ ho
    have hne : other ≠ serviceName := fun h' => hpre (h' ▸ ho)
    simp [serviceRoute, (matchPath_atPrefix (hslash _ hS) (hslash _ hk) hp).not.mpr hne]

theorem served_at_own_prefix_ab :
    let s := (new.updateLoadBalancerBackends (fun _ => true) "a" []).updateLoadBalancerBackends (fun _ => true) "ab" []
    Reachable (fun _ => true) s ∧ (∀ k ∈ s.loadBalancers.keys, '/' ∉ k.data) ∧ "ab" ∈ s.loadBalancers.keys ∧
      "GET" ∈ serviceMethods ∧ AtPrefix "ab" "/ab/x" ∧
      ∃ route, s.router.«match» ⟨"/ab/x", "GET"⟩ = some route ∧ route.serviceName = "ab" :=
  have h : Reachable (fun _ => true)
      ((new.updateLoadBalancerBackends (fun _ => true) "a" []).updateLoadBalancerBackends (fun _ => true) "ab" []) :=
    .update _ _ (.update _ _ .new)
  have hslash : ∀ k ∈ ((new.updateLoadBalancerBackends (fun _ => true) "a" []).updateLoadBalancerBackends
      (fun _ => true) "ab" []).loadBalancers.keys, '/' ∉ k.data := by decide
  have hS : "ab" ∈ ((new.updateLoadBalancerBackends (fun _ => true) "a" []).updateLoadBalancerBackends
      (fun _ => true) "ab" []).loadBalancers.keys := by decide
  have hp : AtPrefix "ab" "/ab/x" := .inr (.inr rfl)
  ⟨h, hslash, hS, by decide, hp, served_at_own_prefix _ _ h hslash "ab" hS "GET" (by decide) _ hp⟩

/-- Pools made for `a` and then for `a/b`. -/
def shadowed : Server :=
  (new.updateLoadBalancerBackends (fun _ => true) "a" []).updateLoadBalancerBackends (fun _ => true) "a/b" []

/-- A request for `/a/b/x` goes to the route of `a`, made first. -/
theorem shadowed_by_earlier_prefix :
    Reachable (fun _ => true) shadowed ∧ "a/b" ∈ shadowed.loadBalancers.keys ∧
      shadowed.router.«match» ⟨"/a/b/x", "GET"⟩ = some (serviceRoute "a") :=
  ⟨.update _ _ (.update _ _ .new), by decide, by decide⟩

/-- In every state of the proxy, a request whose path matches the route of a service is
forwarded with one leading `/S` taken off its path: what remains, which then begins with `/`,
or `/` when nothing remains. -/
theorem forwarded_path_strips_prefix (s : Server) (h : Reachable urlParses s) (req : Request)
    (route : Route) (hm : s.router.«match» req = some route) (backend : Backend) (path : String)
    (hf : (s.handleRequest req).1 = .forward backend path) :
    ∃ rest, req.path = "/" ++ route.serviceName ++ rest ∧
      (rest = "" ∧ path = "/" ∨ hasPrefix rest "/" = true ∧ path = rest) := by
  obtain ⟨serviceName, -, rfl⟩ :=
    List.mem_map.mp (routes_eq_keys urlParses h ▸ List.mem_of_find?_eq_some hm)
  have hpath : Router.matchPath req.path (serviceRoute serviceName).path = true :=
    (Bool.and_eq_true _ _ ▸ List.find?_some hm).1
  rw [handleRequest_forward hm hf]
  simp only [serviceRoute, Router.matchPath_wildcard, Bool.or_eq_true, beq_iff_eq] at hpath ⊢
  rcases hpath with hp | hp
  · refine ⟨"", by rw [hp, String.append_empty], .inl ⟨rfl, ?_⟩⟩
    rw [hp, ← String.append_empty ("/" ++ serviceName), rewritePath_slash_append, if_pos rfl]
  · obtain ⟨x, hx⟩ := (hasPrefix_iff_exists _ _).mp hp
    have hne : "/" ++ x ≠ "" := fun he => List.cons_ne_nil '/' x.data (by rw [← data_slash, he])
    refine ⟨"/" ++ x, by rw [hx, String.append_assoc], .inr ⟨hasPrefix_append _ _, ?_⟩⟩
    rw [hx, String.append_assoc, rewritePath_slash_append, if_neg hne]

theorem forwarded_path_strips_prefix_a :
    let s := new.updateLoadBalancerBackends (fun _ => true) "a" [⟨"i", "a", "h", 1, StrMap.empty⟩]
    Reachable (fun _ => true) s ∧ s.router.«match» ⟨"/a/x", "GET"⟩ = some (serviceRoute "a") ∧
    (s.handleRequest ⟨"/a/x", "GET"⟩).1 = .forward ⟨"http://h:1", 1, true, 0⟩ "/x" ∧
    ∃ rest, "/a/x" = "/" ++ (serviceRoute "a").serviceName ++ rest ∧
      (rest = "" ∧ "/x" = "/" ∨ hasPrefix rest "/" = true ∧ "/x" = rest) :=
  have h : Reachable (fun _ => true)
      (new.updateLoadBalancerBackends (fun _ => true) "a" [⟨"i", "a", "h", 1, StrMap.empty⟩]) :=
    .update _ _ .new
  have hm : (new.updateLoadBalancerBackends (fun _ => true) "a" [⟨"i", "a", "h", 1, StrMap.empty⟩]).router.«match»
      ⟨"/a/x", "GET"⟩ = some (serviceRoute "a") := by decide
  have hf : ((new.updateLoadBalancerBackends (fun _ => true) "a" [⟨"i", "a", "h", 1, StrMap.empty⟩]).handleRequest
      ⟨"/a/x", "GET"⟩).1 = .forward ⟨"http://h:1", 1, true, 0⟩ "/x" := by decide
  ⟨h, hm, hf, forwarded_path_strips_prefix _ _ h _ _ hm _ _ hf⟩

end Server

end FluxGate.Proxy
