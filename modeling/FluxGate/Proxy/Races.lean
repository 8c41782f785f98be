import FluxGate.Proxy.Locking

/-!
# Which fields of the proxy two goroutines can touch at once

Every method reads or writes fields of `Server` and `TLSManager` between its lock calls. An
access is placed by the number of lock calls the method has made before it, read off the source
like the calls themselves. Two accesses of one field conflict when one of them writes: that is a
data race if two goroutines can be at them at the same time. A write made holding the field's
mutex for writing, and a read made holding it either way, can meet no conflicting access that
is made so too. Every access of the methods is made so, save two: `handleHealthCheck` reads
`len(s.loadBalancers)` and `Start` reads `s.config.Timeouts`, neither under `s.mu`, which
`updateLoadBalancerBackends` and `UpdateConfig` hold while they write these fields. The dial
function `UpdateConfig` stores in `s.transport` is read inside `net/http` and is left out.
-/

namespace FluxGate.Proxy.Locking

/-- The fields of `Server` (`loadBalancers`, `reverseProxies`, `config`) and of `TLSManager`
(`config`, here `tlsConfig`; `cert`; `onChange`) the methods touch after `New`. -/
inductive Field
  | loadBalancers
  | reverseProxies
  | config
  | tlsConfig
  | cert
  | onChange
  deriving DecidableEq, Repr

def Field.mutex : Field → Mutex
  | .loadBalancers | .reverseProxies | .config => .server
  | .tlsConfig | .cert | .onChange => .tls

structure Access where
  field : Field
  write : Bool
  deriving DecidableEq, Repr

/-- Two accesses of one field, one of them a write. -/
def Access.Conflicts (a b : Access) : Prop := a.field = b.field ∧ (a.write = true ∨ b.write = true)

/-- The lock calls `done` let the access through: a write holds the field's mutex for writing,
a read holds it either way. -/
def Access.Held (a : Access) (done : List LockOp) : Prop :=
  0 < writeHeld a.field.mutex done ∨ (a.write = false ∧ 0 < readHeld a.field.mutex done)

instance (a : Access) (done : List LockOp) : Decidable (a.Held done) := by
  unfold Access.Held; infer_instance

/-- The accesses of a method called after `d` lock calls of its caller. -/
def after (d : Nat) (accesses : List (Nat × Access)) : List (Nat × Access) :=
  accesses.map fun p => (d + p.1, p.2)

/-- `TLSManager.GetTLSConfig()`, and `IsEnabled()`: `m.cert` under `RLock`. -/
def TLSManager.getTLSConfigAccesses : List (Nat × Access) := [(1, ⟨.cert, false⟩)]

/-- `TLSManager.notifyListeners()`: `GetTLSConfig`, then `range m.onChange`. -/
def TLSManager.notifyListenersAccesses : List (Nat × Access) :=
  getTLSConfigAccesses ++ [(2, ⟨.onChange, false⟩)]

/-- `TLSManager.UpdateConfig(tlsConfig)`: `m.config`, then `m.cert` unless the load fails, then
`notifyListeners`, all under its `Lock`. -/
def TLSManager.updateConfigAccesses (tlsConfig : Option TLS) (loads : Bool) : List (Nat × Access) :=
  (1, ⟨.tlsConfig, true⟩) ::
    match certificateFiles tlsConfig with
    | none => (1, ⟨.cert, true⟩) :: after 1 notifyListenersAccesses
    | some _ => if loads then (1, ⟨.cert, true⟩) :: after 1 notifyListenersAccesses else []

/-- `TLSManager.Subscribe(fn)`: `m.onChange = append(m.onChange, fn)`. -/
def TLSManager.subscribeAccesses : List (Nat × Access) :=
  [(1, ⟨.onChange, false⟩), (1, ⟨.onChange, true⟩)]

/-- `Server.UpdateConfig(cfg)`: `s.config = cfg`, then `TLSManager.UpdateConfig`. -/
def Server.updateConfigAccesses (cfg : Config) (loads : Bool) : List (Nat × Access) :=
  (1, ⟨.config, true⟩) :: after 1 (TLSManager.updateConfigAccesses cfg.tls loads)

/-- `Server.getOrCreateProxy(target)`: `s.reverseProxies[key]` under `RLock`, and the new proxy
stored under `Lock` unless one exists. -/
def Server.getOrCreateProxyAccesses (cached : Bool) : List (Nat × Access) :=
  (1, ⟨.reverseProxies, false⟩) :: if cached then [] else [(3, ⟨.reverseProxies, true⟩)]

/-- `Server.handleRequest(w, r)`: `s.loadBalancers[route.ServiceName]` under `RLock`. -/
def Server.handleRequestAccesses (routed proxied cached : Bool) : List (Nat × Access) :=
  if routed then
    (1, ⟨.loadBalancers, false⟩) :: if proxied then after 2 (getOrCreateProxyAccesses cached) else []
  else []

/-- `Server.updateLoadBalancerBackends(serviceName, instances)`: the lookup and the store. -/
def Server.updateLoadBalancerBackendsAccesses : List (Nat × Access) :=
  [(1, ⟨.loadBalancers, false⟩), (1, ⟨.loadBalancers, true⟩)]

/-- The listener of `subscribeToServiceChanges`, given a snapshot of `n` services. -/
def Server.onServiceChangeAccesses : Nat → List (Nat × Access)
  | 0 => []
  | n + 1 => updateLoadBalancerBackendsAccesses ++ after 2 (onServiceChangeAccesses n)

def Server.getLoadBalancerAccesses : List (Nat × Access) := [(1, ⟨.loadBalancers, false⟩)]

/-- `Server.Start(ctx)`: the `http.Server` literal reads `s.config.Timeouts`, and Go leaves the
order of these reads and the `GetTLSConfig` call open; neither holds `s.mu`. Then `Subscribe`
and `IsEnabled`. -/
def Server.startAccesses : List (Nat × Access) :=
  (0, ⟨.config, false⟩) :: TLSManager.getTLSConfigAccesses ++ after 2 TLSManager.subscribeAccesses ++
    after 4 TLSManager.getTLSConfigAccesses

/-- `Server.handleHealthCheck(w, r)`: `len(s.loadBalancers)` for a `GET`. -/
def Server.handleHealthCheckAccesses (get : Bool) : List (Nat × Access) :=
  if get then [(0, ⟨.loadBalancers, false⟩)] else []

def Call.accesses : Call → List (Nat × Access)
  | .handleRequest routed proxied cached => Server.handleRequestAccesses routed proxied cached
  | .onServiceChange services => Server.onServiceChangeAccesses services
  | .getLoadBalancer => Server.getLoadBalancerAccesses
  | .updateConfig cfg loads => Server.updateConfigAccesses cfg loads
  | .start => Server.startAccesses
  | .handleHealthCheck get => Server.handleHealthCheckAccesses get

/-- The accesses the source makes without the field's mutex. -/
def Call.Unguarded : Call → Access → Prop
  | .handleHealthCheck _, a => a = ⟨.loadBalancers, false⟩
  | .start, a => a = ⟨.config, false⟩
  | _, _ => False

instance (c : Call) (a : Access) : Decidable (c.Unguarded a) := by
  cases c <;> unfold Call.Unguarded <;> infer_instance

theorem held_append {pre : List LockOp}
    (hbal : ∀ m, pre.count (.unlock m) = pre.count (.lock m) ∧
      pre.count (.runlock m) = pre.count (.rlock m))
    {a : Access} {done : List LockOp} : a.Held (pre ++ done) ↔ a.Held done := by
  obtain ⟨hw, hr⟩ := held_append_of_balanced hbal a.field.mutex done
  simp only [Access.Held, hw, hr]

theorem onServiceChange_held (n : Nat) :
    ∀ p ∈ Server.onServiceChangeAccesses n, p.2.Held ((Server.onServiceChangeOps n).take p.1) := by
  induction n with
  | zero => simp [Server.onServiceChangeAccesses]
  | succ n ih =>
    simp only [Server.onServiceChangeAccesses, Server.onServiceChangeOps, List.mem_append]
    rintro p (hp | hp)
    · have h1 : ∀ p ∈ Server.updateLoadBalancerBackendsAccesses,
          p.2.Held (Server.updateLoadBalancerBackendsOps.take p.1) ∧
            p.1 ≤ Server.updateLoadBalancerBackendsOps.length := by decide
      obtain ⟨hh, hle⟩ := h1 p hp
      rwa [List.take_append_of_le_length hle]
    · obtain ⟨q, hq, rfl⟩ := List.mem_map.mp hp
      show q.2.Held ((Server.updateLoadBalancerBackendsOps ++ Server.onServiceChangeOps n).take
        (Server.updateLoadBalancerBackendsOps.length + q.1))
      rw [List.take_append]
      exact (held_append fun m => by cases m <;> decide).mpr (ih q hq)

/-- Every access of every method is made holding the field's mutex as it must be, save the two
the source makes without `s.mu`. -/
theorem Call.held_or_unguarded (c : Call) :
    ∀ p ∈ c.accesses, p.2.Held (c.ops.take p.1) ∨ c.Unguarded p.2 := by
  cases c with
  | handleRequest routed proxied cached =>
    cases routed <;> cases proxied <;> cases cached <;> decide
  | onServiceChange services => exact fun p hp => .inl (onServiceChange_held services p hp)
  | getLoadBalancer => decide
  | updateConfig cfg loads =>
    simp only [Call.accesses, Call.ops, Call.Unguarded, or_false, Server.updateConfigAccesses,
      Server.updateConfigOps, TLSManager.updateConfigAccesses, TLSManager.updateConfigOps]
    cases certificateFiles cfg.tls <;> cases loads <;>
      simp only [Bool.false_eq_true, if_true, if_false] <;> decide
  | start => decide
  | handleHealthCheck get => cases get <;> decide

theorem Access.Held.writeHeld_pos {a : Access} {done : List LockOp} (h : a.Held done)
    (hw : a.write = true) : 0 < writeHeld a.field.mutex done := by
  rcases h with h | ⟨h, -⟩
  · exact h
  · rw [hw] at h; cases h

theorem State.Inv.alone {s : State} (hs : s.Inv) {i j : Nat} (hij : i ≠ j) {g h : Goroutine}
    (hi : s.goroutines[i]? = some g) (hj : s.goroutines[j]? = some h) {m : Mutex}
    (hw : 0 < writeHeld m g.done) : writeHeld m h.done = 0 ∧ readHeld m h.done = 0 := by
  have h2 : writeHeld m g.done + writeHeld m h.done ≤ s.writers m :=
    add_le_total (fun g => writeHeld m g.done) hi hj hij
  have hr := readHeld_le_readers hj m
  have hex := hs.exclusive m
  have := hex.2 (by omega)
  omega

theorem State.Inv.not_conflicts {s : State} (hs : s.Inv) {i j : Nat} (hij : i ≠ j)
    {g h : Goroutine} (hi : s.goroutines[i]? = some g) (hj : s.goroutines[j]? = some h)
    {a b : Access} (ha : a.Held g.done) (hb : b.Held h.done) (hc : a.Conflicts b) : False := by
  obtain ⟨hf, hw | hw⟩ := hc
  · have := hs.alone hij hi hj (ha.writeHeld_pos hw)
    rw [hf] at this
    rcases hb with hb | ⟨-, hb⟩ <;> omega
  · have := hs.alone (Ne.symm hij) hj hi (hb.writeHeld_pos hw)
    rw [← hf] at this
    rcases ha with ha | ⟨-, ha⟩ <;> omega

/-- In every reachable state, two goroutines at conflicting accesses of one field at once are a
data race only through the two accesses made without `s.mu`: `handleHealthCheck`'s read of
`s.loadBalancers` or `Start`'s read of `s.config`. -/
theorem races_unguarded {s : State} (hs : Reachable s) {i j : Nat} (hij : i ≠ j) {c c' : Call}
    {k k' : Nat} (hi : s.goroutines[i]? = some ⟨c.ops, k⟩) (hj : s.goroutines[j]? = some ⟨c'.ops, k'⟩)
    {a a' : Access} (ha : (k, a) ∈ c.accesses) (ha' : (k', a') ∈ c'.accesses)
    (hc : a.Conflicts a') : c.Unguarded a ∨ c'.Unguarded a' := by
  rcases c.held_or_unguarded _ ha with hg | hu
  · rcases c'.held_or_unguarded _ ha' with hg' | hu'
    · exact (hs.inv.not_conflicts hij hi hj hg hg' hc).elim
    · exact .inr hu'
  · exact .inl hu

theorem races_unguarded_healthCheck :
    let s : State := ⟨Function.update (fun _ => RWMutex.free) Mutex.server ⟨true, 0⟩,
      [⟨(Call.onServiceChange 1).ops, 1⟩, ⟨(Call.handleHealthCheck true).ops, 0⟩]⟩
    Reachable s ∧ (0 : Nat) ≠ 1 ∧ s.goroutines[0]? = some ⟨(Call.onServiceChange 1).ops, 1⟩ ∧
      s.goroutines[1]? = some ⟨(Call.handleHealthCheck true).ops, 0⟩ ∧
      (1, ⟨.loadBalancers, true⟩) ∈ (Call.onServiceChange 1).accesses ∧
      (0, ⟨.loadBalancers, false⟩) ∈ (Call.handleHealthCheck true).accesses ∧
      Access.Conflicts ⟨.loadBalancers, true⟩ ⟨.loadBalancers, false⟩ ∧
      ((Call.onServiceChange 1).Unguarded ⟨.loadBalancers, true⟩ ∨
        (Call.handleHealthCheck true).Unguarded ⟨.loadBalancers, false⟩) := by
  intro s
  have hr : Reachable s :=
    .tail (.tail (.single (.start _ (.onServiceChange 1))) (.advance 0 rfl))
      (.start _ (.handleHealthCheck true))
  have hi : s.goroutines[0]? = some ⟨(Call.onServiceChange 1).ops, 1⟩ := rfl
  have hj : s.goroutines[1]? = some ⟨(Call.handleHealthCheck true).ops, 0⟩ := rfl
  have ha : ((1 : Nat), (⟨.loadBalancers, true⟩ : Access)) ∈ (Call.onServiceChange 1).accesses := by
    decide
  have ha' : ((0 : Nat), (⟨.loadBalancers, false⟩ : Access)) ∈ (Call.handleHealthCheck true).accesses := by
    decide
  have hc : Access.Conflicts ⟨.loadBalancers, true⟩ ⟨.loadBalancers, false⟩ := ⟨rfl, .inl rfl⟩
  exact ⟨hr, by decide, hi, hj, ha, ha', hc, races_unguarded hr (by decide) hi hj ha ha' hc⟩

end FluxGate.Proxy.Locking
