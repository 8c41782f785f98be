import FluxGate.Proxy.Tls
import Mathlib.Logic.Relation
import Mathlib.Logic.Function.Basic

/-!
# The locks of `proxy.Server` and `proxy.TLSManager`

Every HTTP request, configuration reload and callback runs in a goroutine of its own. The
server's state is guarded by `Server.mu` and the TLS manager's by `TLSManager.mu`, both
`sync.RWMutex`. A goroutine is modelled by the lock calls of the method it runs, in order, read
off the source with the branches the method takes as arguments; the data these calls guard is
modelled in `Server` and `Tls`. A state of the program is the word of each mutex and each
goroutine with how many of its calls it has made; a step starts a goroutine, or lets one make
its next call if the mutex lets it through. In Go a writer waiting in `Lock` also holds back new
readers; the model lets them in, so every run of the program is a run of the model, and what
holds of every run here holds of the program. The registry, the load balancers and the config
manager have mutexes of their own, which no goroutine holds while it waits for one of these two;
they are left out.
-/

namespace FluxGate.Proxy.Locking

/-- The two mutexes: `Server.mu` and `TLSManager.mu`. -/
inductive Mutex
  | server
  | tls
  deriving DecidableEq, Repr

inductive LockOp
  | lock (m : Mutex)
  | unlock (m : Mutex)
  | rlock (m : Mutex)
  | runlock (m : Mutex)
  deriving DecidableEq, Repr

def LockOp.mutex : LockOp → Mutex
  | .lock m | .unlock m | .rlock m | .runlock m => m

/-- `TLSManager.GetTLSConfig()`, and `IsEnabled()`. -/
def TLSManager.getTLSConfigOps : List LockOp := [.rlock .tls, .runlock .tls]

/-- `TLSManager.UpdateConfig(tlsConfig)`, where `loads` tells whether the new certificate loads:
`notifyListeners` calls `GetTLSConfig` before the deferred `Unlock` runs. -/
def TLSManager.updateConfigOps (tlsConfig : Option TLS) (loads : Bool) : List LockOp :=
  .lock .tls ::
    (match certificateFiles tlsConfig with
      | none => getTLSConfigOps
      | some _ => if loads then getTLSConfigOps else []) ++ [.unlock .tls]

def Server.updateConfigOps (cfg : Config) (loads : Bool) : List LockOp :=
  .lock .server :: TLSManager.updateConfigOps cfg.tls loads ++ [.unlock .server]

/-- `Server.getOrCreateProxy(target)`; `cached` when a proxy for the target exists. -/
def Server.getOrCreateProxyOps (cached : Bool) : List LockOp :=
  [.rlock .server, .runlock .server] ++ if cached then [] else [.lock .server, .unlock .server]

/-- `Server.handleRequest(w, r)`: `routed` when the router matches, `proxied` when the pool
exists, gives a backend, and the request is no WebSocket upgrade. -/
def Server.handleRequestOps (routed proxied cached : Bool) : List LockOp :=
  if routed then
    [.rlock .server, .runlock .server] ++ if proxied then getOrCreateProxyOps cached else []
  else []

def Server.updateLoadBalancerBackendsOps : List LockOp := [.lock .server, .unlock .server]

/-- The listener of `subscribeToServiceChanges`, given a snapshot of `n` services. -/
def Server.onServiceChangeOps : Nat → List LockOp
  | 0 => []
  | n + 1 => updateLoadBalancerBackendsOps ++ onServiceChangeOps n

def Server.getLoadBalancerOps : List LockOp := [.rlock .server, .runlock .server]

/-- `Server.Start(ctx)` up to serving: `GetTLSConfig`, `Subscribe` and `IsEnabled`. -/
def Server.startOps : List LockOp :=
  TLSManager.getTLSConfigOps ++ [.lock .tls, .unlock .tls] ++ TLSManager.getTLSConfigOps

/-- `Server.handleHealthCheck(w, r)` reads `len(s.loadBalancers)` without taking `s.mu`. -/
def Server.handleHealthCheckOps : List LockOp := []

inductive Call
  | handleRequest (routed proxied cached : Bool)
  | onServiceChange (services : Nat)
  | getLoadBalancer
  | updateConfig (cfg : Config) (loads : Bool)
  | start
  | handleHealthCheck (get : Bool)
  deriving DecidableEq, Repr

def Call.ops : Call → List LockOp
  | .handleRequest routed proxied cached => Server.handleRequestOps routed proxied cached
  | .onServiceChange services => Server.onServiceChangeOps services
  | .getLoadBalancer => Server.getLoadBalancerOps
  | .updateConfig cfg loads => Server.updateConfigOps cfg loads
  | .start => Server.startOps
  | .handleHealthCheck _ => Server.handleHealthCheckOps

/-- The word of a `sync.RWMutex`: whether a writer holds it, and how many readers do. -/
structure RWMutex where
  writer : Bool
  readers : Nat
  deriving DecidableEq, Repr

def RWMutex.free : RWMutex := ⟨false, 0⟩

/-- The word after a call, `none` while the call cannot go through. An `Unlock` or `RUnlock` of
a mutex not so held is a fatal error in Go; here it does not go through either. -/
def RWMutex.call (w : RWMutex) : LockOp → Option RWMutex
  | .lock _ => if w.writer = false ∧ w.readers = 0 then some ⟨true, 0⟩ else none
  | .unlock _ => if w.writer then some ⟨false, w.readers⟩ else none
  | .rlock _ => if w.writer then none else some ⟨false, w.readers + 1⟩
  | .runlock _ => if 0 < w.readers then some ⟨w.writer, w.readers - 1⟩ else none

/-- A goroutine: the lock calls of what it runs, and how many it has made. -/
structure Goroutine where
  ops : List LockOp
  pc : Nat
  deriving DecidableEq, Repr

def Goroutine.done (g : Goroutine) : List LockOp := g.ops.take g.pc

def Goroutine.next? (g : Goroutine) : Option LockOp := g.ops[g.pc]?

/-- The program: the word of each mutex, and the goroutines in the order they started. -/
structure State where
  mutex : Mutex → RWMutex
  goroutines : List Goroutine

def State.init : State := ⟨fun _ => .free, []⟩

/-- Goroutine `i` makes its next call, if the mutex lets it through. -/
def State.advance (s : State) (i : Nat) : Option State := do
  let g ← s.goroutines[i]?
  let op ← g.next?
  let w ← (s.mutex op.mutex).call op
  pure ⟨Function.update s.mutex op.mutex w, s.goroutines.set i { g with pc := g.pc + 1 }⟩

/-- A step starts a goroutine, or lets one make a call. -/
inductive Step : State → State → Prop
  | start (s : State) (c : Call) : Step s ⟨s.mutex, s.goroutines ++ [⟨c.ops, 0⟩]⟩
  | advance {s s' : State} (i : Nat) : s.advance i = some s' → Step s s'

def Reachable (s : State) : Prop := Relation.ReflTransGen Step State.init s

theorem State.advance_eq_some {s s' : State} {i : Nat} :
    s.advance i = some s' ↔ ∃ g op w, s.goroutines[i]? = some g ∧ g.next? = some op ∧
      (s.mutex op.mutex).call op = some w ∧
      s' = ⟨Function.update s.mutex op.mutex w, s.goroutines.set i { g with pc := g.pc + 1 }⟩ := by
  simp only [State.advance, Option.bind_eq_bind, Option.bind_eq_some, Option.pure_def,
    Option.some.injEq]
  constructor
  · rintro ⟨g, hg, op, hop, w, hw, rfl⟩
    exact ⟨g, op, w, hg, hop, hw, rfl⟩
  · rintro ⟨g, op, w, hg, hop, hw, rfl⟩
    exact ⟨g, hg, op, hop, w, hw, rfl⟩

theorem Goroutine.done_advance {g : Goroutine} {op : LockOp} (h : g.next? = some op) :
    ({ g with pc := g.pc + 1 } : Goroutine).done = g.done ++ [op] := by
  simp only [Goroutine.done, List.take_succ]
  rw [show g.ops[g.pc]? = some op from h]
  rfl

def total {α : Type} (f : α → Nat) : List α → Nat
  | [] => 0
  | a :: l => f a + total f l

/-- How often the calls `done` hold `m` for writing: their `Lock`s less their `Unlock`s. -/
def writeHeld (m : Mutex) (done : List LockOp) : Nat :=
  done.count (.lock m) - done.count (.unlock m)

/-- How often the calls `done` hold `m` for reading. -/
def readHeld (m : Mutex) (done : List LockOp) : Nat :=
  done.count (.rlock m) - done.count (.runlock m)

def State.writers (s : State) (m : Mutex) : Nat := total (fun g => writeHeld m g.done) s.goroutines

def State.readers (s : State) (m : Mutex) : Nat := total (fun g => readHeld m g.done) s.goroutines

/-- Every prefix of `ops` has made no more `Unlock`s of a mutex than `Lock`s, and no more
`RUnlock`s than `RLock`s: the discipline of `defer mu.Unlock()`. -/
def Bracketed (ops : List LockOp) : Prop :=
  ∀ k m, (ops.take k).count (.unlock m) ≤ (ops.take k).count (.lock m) ∧
    (ops.take k).count (.runlock m) ≤ (ops.take k).count (.rlock m)

theorem bracketed_iff (ops : List LockOp) : Bracketed ops ↔
    ∀ k ∈ List.range (ops.length + 1), ∀ m ∈ [Mutex.server, .tls],
      (ops.take k).count (.unlock m) ≤ (ops.take k).count (.lock m) ∧
        (ops.take k).count (.runlock m) ≤ (ops.take k).count (.rlock m) := by
  constructor
  · exact fun h k _ m _ => h k m
  · intro h k m
    have hm : m ∈ [Mutex.server, .tls] := by cases m <;> simp
    by_cases hk : k ≤ ops.length
    · exact h k (List.mem_range.mpr (Nat.lt_succ_of_le hk)) m hm
    · rw [List.take_of_length_le (by omega)]
      simpa using h ops.length (List.mem_range.mpr (Nat.lt_succ_self _)) m hm

instance (ops : List LockOp) : Decidable (Bracketed ops) :=
  decidable_of_iff _ (bracketed_iff ops).symm

theorem bracketed_append {a b : List LockOp} (ha : Bracketed a) (hb : Bracketed b)
    (hbal : ∀ m, a.count (.unlock m) = a.count (.lock m) ∧
      a.count (.runlock m) = a.count (.rlock m)) : Bracketed (a ++ b) := by
  intro k m
  rw [List.take_append_eq_append_take]
  by_cases hk : k ≤ a.length
  · rw [Nat.sub_eq_zero_of_le hk, List.take_zero, List.append_nil]
    exact ha k m
  · rw [List.take_of_length_le (by omega)]
    simp only [List.count_append]
    have := hb (k - a.length) m
    have := hbal m
    omega

theorem held_append_of_balanced {pre : List LockOp}
    (hbal : ∀ m, pre.count (.unlock m) = pre.count (.lock m) ∧
      pre.count (.runlock m) = pre.count (.rlock m)) (m : Mutex) (done : List LockOp) :
    writeHeld m (pre ++ done) = writeHeld m done ∧ readHeld m (pre ++ done) = readHeld m done := by
  have := hbal m
  simp only [writeHeld, readHeld, List.count_append]
  omega

theorem Call.bracketed (c : Call) : Bracketed c.ops := by
  cases c with
  | handleRequest routed proxied cached =>
    cases routed <;> cases proxied <;> cases cached <;> decide
  | onServiceChange services =>
    induction services with
    | zero => decide
    | succ n ih =>
      exact bracketed_append (by decide) ih (fun m => by cases m <;> decide)
  | getLoadBalancer => decide
  | updateConfig cfg loads =>
    simp only [Call.ops, Server.updateConfigOps, TLSManager.updateConfigOps]
    cases certificateFiles cfg.tls <;> cases loads <;>
      simp only [Bool.false_eq_true, if_true, if_false] <;> decide
  | start => decide
  | handleHealthCheck get => cases get <;> decide

/-- What every reachable state satisfies: each goroutine runs a method, and the word of each
mutex counts the goroutines that hold it, at most one writer and then no reader. -/
structure State.Inv (s : State) : Prop where
  bracketed : ∀ g ∈ s.goroutines, Bracketed g.ops
  writer : ∀ m, (s.mutex m).writer = true ↔ 0 < s.writers m
  readers : ∀ m, (s.mutex m).readers = s.readers m
  exclusive : ∀ m, s.writers m ≤ 1 ∧ (0 < s.writers m → s.readers m = 0)

theorem total_append {α : Type} (f : α → Nat) (l₁ l₂ : List α) :
    total f (l₁ ++ l₂) = total f l₁ + total f l₂ := by
  induction l₁ with
  | nil => simp [total]
  | cons a l ih => rw [List.cons_append, total, total, ih, Nat.add_assoc]

theorem total_set {α : Type} (f : α → Nat) {l : List α} {i : Nat} {a : α} (h : l[i]? = some a)
    (b : α) : total f (l.set i b) + f a = total f l + f b := by
  induction l generalizing i with
  | nil => simp at h
  | cons x l ih =>
    cases i with
    | zero =>
      simp only [List.getElem?_cons_zero, Option.some.injEq] at h
      subst h
      simp only [List.set_cons_zero, total]
      omega
    | succ i =>
      simp only [List.getElem?_cons_succ] at h
      simp only [List.set_cons_succ, total]
      have := ih h
      omega

theorem apply_le_total {α : Type} (f : α → Nat) {l : List α} {i : Nat} {a : α}
    (h : l[i]? = some a) : f a ≤ total f l := by
  induction l generalizing i with
  | nil => simp at h
  | cons x l ih =>
    cases i with
    | zero =>
      simp only [List.getElem?_cons_zero, Option.some.injEq] at h
      subst h
      simp only [total]
      omega
    | succ i =>
      simp only [List.getElem?_cons_succ] at h
      simp only [total]
      have := ih h
      omega

theorem add_le_total {α : Type} (f : α → Nat) {l : List α} {i j : Nat} {a b : α}
    (ha : l[i]? = some a) (hb : l[j]? = some b) (hij : i ≠ j) : f a + f b ≤ total f l := by
  induction l generalizing i j with
  | nil => simp at ha
  | cons x l ih =>
    simp only [total]
    cases i with
    | zero =>
      cases j with
      | zero => exact absurd rfl hij
      | succ j =>
        simp only [List.getElem?_cons_zero, Option.some.injEq] at ha
        simp only [List.getElem?_cons_succ] at hb
        subst ha
        have := apply_le_total f hb
        omega
    | succ i =>
      cases j with
      | zero =>
        simp only [List.getElem?_cons_zero, Option.some.injEq] at hb
        simp only [List.getElem?_cons_succ] at ha
        subst hb
        have := apply_le_total f ha
        omega
      | succ j =>
        simp only [List.getElem?_cons_succ] at ha hb
        have := ih ha hb (by omega)
        omega

theorem count_append_op (x op : LockOp) (done : List LockOp) :
    (done ++ [op]).count x = done.count x + if op = x then 1 else 0 := by
  rw [List.count_append, List.count_singleton']

theorem State.Inv.init : State.init.Inv where
  bracketed := by simp [State.init]
  writer _ := by simp [State.init, RWMutex.free, State.writers, total]
  readers _ := rfl
  exclusive _ := by simp [State.writers, State.init, total]

theorem State.Inv.start {s : State} (hs : s.Inv) (c : Call) :
    (State.mk s.mutex (s.goroutines ++ [⟨c.ops, 0⟩])).Inv := by
  have hW : ∀ m, (State.mk s.mutex (s.goroutines ++ [⟨c.ops, 0⟩])).writers m = s.writers m := by
    simp [State.writers, Goroutine.done, writeHeld, total_append, total]
  have hR : ∀ m, (State.mk s.mutex (s.goroutines ++ [⟨c.ops, 0⟩])).readers m = s.readers m := by
    simp [State.readers, Goroutine.done, readHeld, total_append, total]
  refine ⟨?_, fun m => ?_, fun m => ?_, fun m => ?_⟩
  · simp only [List.mem_append, List.mem_singleton]
    rintro g (hg | rfl)
    · exact hs.bracketed g hg
    · exact c.bracketed
  · rw [hW]; exact hs.writer m
  · rw [hR]; exact hs.readers m
  · rw [hW, hR]; exact hs.exclusive m

theorem RWMutex.call_lock_eq_some {w w' : RWMutex} {m : Mutex} :
    w.call (.lock m) = some w' ↔ (w.writer = false ∧ w.readers = 0) ∧ ⟨true, 0⟩ = w' := by
  simp only [RWMutex.call, Option.ite_none_right_eq_some, Option.some.injEq]

theorem RWMutex.call_unlock_eq_some {w w' : RWMutex} {m : Mutex} :
    w.call (.unlock m) = some w' ↔ w.writer = true ∧ ⟨false, w.readers⟩ = w' := by
  simp only [RWMutex.call, Option.ite_none_right_eq_some, Option.some.injEq]

theorem RWMutex.call_rlock_eq_some {w w' : RWMutex} {m : Mutex} :
    w.call (.rlock m) = some w' ↔ ¬w.writer = true ∧ ⟨false, w.readers + 1⟩ = w' := by
  simp only [RWMutex.call, Option.ite_none_left_eq_some, Option.some.injEq]

theorem RWMutex.call_runlock_eq_some {w w' : RWMutex} {m : Mutex} :
    w.call (.runlock m) = some w' ↔ 0 < w.readers ∧ ⟨w.writer, w.readers - 1⟩ = w' := by
  simp only [RWMutex.call, Option.ite_none_right_eq_some, Option.some.injEq]

theorem State.Inv.advance {s s' : State} (hs : s.Inv) {i : Nat} (h : s.advance i = some s') :
    s'.Inv := by
  obtain ⟨g, op, w, hg, hop, hw, rfl⟩ := State.advance_eq_some.mp h
  set s' : State := ⟨Function.update s.mutex op.mutex w, s.goroutines.set i { g with pc := g.pc + 1 }⟩
  have hbr := hs.bracketed g (List.getElem?_mem hg)
  have hdone := Goroutine.done_advance hop
  suffices key : ∀ m, ((s'.mutex m).writer = true ↔ 0 < s'.writers m) ∧
      (s'.mutex m).readers = s'.readers m ∧ s'.writers m ≤ 1 ∧ (0 < s'.writers m → s'.readers m = 0) by
    refine ⟨?_, fun m => (key m).1, fun m => (key m).2.1, fun m => (key m).2.2⟩
    intro g' hg'
    rcases List.mem_or_eq_of_mem_set hg' with hg' | rfl
    · exact hs.bracketed g' hg'
    · exact hbr
  intro m
  have hwr := hs.writer m
  have hrd := hs.readers m
  have hex := hs.exclusive m
  have hW : s'.writers m + writeHeld m g.done = s.writers m + writeHeld m (g.done ++ [op]) := by
    rw [← hdone]; exact total_set _ hg _
  have hR : s'.readers m + readHeld m g.done = s.readers m + readHeld m (g.done ++ [op]) := by
    rw [← hdone]; exact total_set _ hg _
  have hb0 : g.done.count (.unlock m) ≤ g.done.count (.lock m) ∧
      g.done.count (.runlock m) ≤ g.done.count (.rlock m) := hbr g.pc m
  have hb1 := hbr (g.pc + 1) m
  rw [show g.ops.take (g.pc + 1) = g.done ++ [op] from hdone] at hb1
  simp only [writeHeld, readHeld, count_append_op] at hW hR hb1
  by_cases hm : op.mutex = m
  · have hupd : s'.mutex m = w := by rw [← hm]; exact Function.update_same _ _ _
    rw [hupd]
    cases op with
    | lock m' =>
      simp only [LockOp.mutex] at hm hw; subst hm
      obtain ⟨⟨h1, h2⟩, rfl⟩ := RWMutex.call_lock_eq_some.mp hw
      simp only [reduceCtorEq, if_true, if_false, add_zero] at hW hR hb1
      dsimp only
      rw [h1, Bool.false_eq_true, false_iff] at hwr
      exact ⟨by simp only [true_iff]; omega, by omega, by omega, fun _ => by omega⟩
    | unlock m' =>
      simp only [LockOp.mutex] at hm hw; subst hm
      obtain ⟨h1, rfl⟩ := RWMutex.call_unlock_eq_some.mp hw
      simp only [reduceCtorEq, if_true, if_false, add_zero] at hW hR hb1
      dsimp only
      have := hwr.mp h1
      exact ⟨by simp only [Bool.false_eq_true, false_iff]; omega, by omega, by omega, fun _ => by omega⟩
    | rlock m' =>
      simp only [LockOp.mutex] at hm hw; subst hm
      obtain ⟨h1, rfl⟩ := RWMutex.call_rlock_eq_some.mp hw
      simp only [reduceCtorEq, if_true, if_false, add_zero] at hW hR hb1
      dsimp only
      rw [iff_false_left h1] at hwr
      exact ⟨by simp only [Bool.false_eq_true, false_iff]; omega, by omega, by omega, fun _ => by omega⟩
    | runlock m' =>
      simp only [LockOp.mutex] at hm hw; subst hm
      obtain ⟨h1, rfl⟩ := RWMutex.call_runlock_eq_some.mp hw
      simp only [reduceCtorEq, if_true, if_false, add_zero] at hW hR hb1
      dsimp only
      have h0 : s.writers m' = 0 := by
        by_contra h0; have := hex.2 (by omega); omega
      refine ⟨?_, by omega, by omega, fun _ => by omega⟩
      rw [hwr]; omega
  · obtain ⟨h1, h2, h3, h4⟩ : op ≠ .lock m ∧ op ≠ .unlock m ∧ op ≠ .rlock m ∧ op ≠ .runlock m := by
      cases op <;> simp only [LockOp.mutex] at hm <;> simp [hm]
    simp only [h1, h2, h3, h4, if_false, add_zero] at hW hR
    have hupd : s'.mutex m = s.mutex m := Function.update_noteq (Ne.symm hm) _ _
    rw [hupd, hwr, hrd]
    exact ⟨by omega, by omega, by omega, fun _ => by have := hex.2; omega⟩

theorem State.Inv.step {s s' : State} (hs : s.Inv) (h : Step s s') : s'.Inv := by
  cases h with
  | start c => exact hs.start c
  | advance _ h => exact hs.advance h

theorem State.Inv.steps {s s' : State} (hs : s.Inv) (h : Relation.ReflTransGen Step s s') :
    s'.Inv := by
  induction h with
  | refl => exact hs
  | tail _ hst ih => exact ih.step hst

theorem Reachable.inv {s : State} (h : Reachable s) : s.Inv := State.Inv.init.steps h

theorem writeHeld_le_writers {s : State} {i : Nat} {g : Goroutine} (hi : s.goroutines[i]? = some g)
    (m : Mutex) : writeHeld m g.done ≤ s.writers m :=
  apply_le_total (fun g => writeHeld m g.done) hi

theorem readHeld_le_readers {s : State} {i : Nat} {g : Goroutine} (hi : s.goroutines[i]? = some g)
    (m : Mutex) : readHeld m g.done ≤ s.readers m :=
  apply_le_total (fun g => readHeld m g.done) hi

theorem State.Inv.held_of_next {s : State} (hs : s.Inv) {i : Nat} {g : Goroutine}
    (hi : s.goroutines[i]? = some g) {m : Mutex} :
    (g.next? = some (.unlock m) → 0 < writeHeld m g.done) ∧
      (g.next? = some (.runlock m) → 0 < readHeld m g.done) := by
  have hbr := hs.bracketed g (List.getElem?_mem hi)
  constructor <;> intro hop <;>
  · have hb1 := hbr (g.pc + 1) m
    rw [show g.ops.take (g.pc + 1) = g.done ++ _ from Goroutine.done_advance hop] at hb1
    simp only [count_append_op, reduceCtorEq, if_true, if_false, add_zero] at hb1
    simp only [writeHeld, readHeld]
    omega

/-- No goroutine of the proxy makes the `Unlock` or `RUnlock` that Go treats as a fatal error:
whenever one is about to release a mutex, the mutex is held that way. -/
theorem release_goes_through {s : State} (hs : Reachable s) {i : Nat} {g : Goroutine}
    (hi : s.goroutines[i]? = some g) (m : Mutex) :
    (g.next? = some (.unlock m) → (s.mutex m).writer = true) ∧
      (g.next? = some (.runlock m) → 0 < (s.mutex m).readers) := by
  have hinv := hs.inv
  refine ⟨fun hop => ?_, fun hop => ?_⟩
  · exact (hinv.writer m).mpr
      (lt_of_lt_of_le ((hinv.held_of_next hi).1 hop) (writeHeld_le_writers hi m))
  · rw [hinv.readers m]
    exact lt_of_lt_of_le ((hinv.held_of_next hi).2 hop) (readHeld_le_readers hi m)

theorem State.Inv.advance_eq_none {s : State} (hs : s.Inv) {i : Nat} {g : Goroutine}
    (hi : s.goroutines[i]? = some g) (hnext : ∃ m, g.next? = some (.rlock m))
    (hheld : ∀ m, 0 < writeHeld m g.done) (j : Nat) : s.advance j = none := by
  obtain ⟨m0, hm0⟩ := hnext
  cases ha : s.advance j with
  | none => rfl
  | some s' =>
    exfalso
    obtain ⟨h, op, w, hj, hop, hw, -⟩ := State.advance_eq_some.mp ha
    have hW : 0 < s.writers op.mutex :=
      lt_of_lt_of_le (hheld op.mutex) (writeHeld_le_writers hi _)
    have hwr : (s.mutex op.mutex).writer = true := (hs.writer _).mpr hW
    have hR : (s.mutex op.mutex).readers = 0 := (hs.readers _).trans ((hs.exclusive _).2 hW)
    cases op <;> simp only [LockOp.mutex] at hw hwr hR
    case lock m => simp [RWMutex.call, hwr] at hw
    case rlock m => simp [RWMutex.call, hwr] at hw
    case runlock m => simp [RWMutex.call, hR] at hw
    case unlock m =>
      by_cases hij : i = j
      · subst hij
        rw [hi, Option.some.injEq] at hj
        subst hj
        rw [hm0] at hop
        cases hop
      · have h1 := (hs.held_of_next hj).1 hop
        have h2 : writeHeld m g.done + writeHeld m h.done ≤ s.writers m :=
          add_le_total (fun g => writeHeld m g.done) hi hj hij
        have h3 := (hs.exclusive m).1
        have h4 := hheld m
        omega

theorem State.Inv.frozen {s s' : State} (hs : s.Inv) {i : Nat} {g : Goroutine}
    (hi : s.goroutines[i]? = some g) (hnext : ∃ m, g.next? = some (.rlock m))
    (hheld : ∀ m, 0 < writeHeld m g.done) (h : Relation.ReflTransGen Step s s') :
    s'.mutex = s.mutex ∧ ∃ started : List Goroutine,
      s'.goroutines = s.goroutines ++ started ∧ ∀ g' ∈ started, g'.pc = 0 := by
  induction h with
  | refl => exact ⟨rfl, [], by simp, by simp⟩
  | @tail s₁ s₂ hss hst ih =>
    obtain ⟨hmu, started, hgs, hpc⟩ := ih
    have hi' : s₁.goroutines[i]? = some g := by
      rw [hgs, List.getElem?_append_left (List.getElem?_eq_some_iff.mp hi).1]
      exact hi
    cases hst with
    | start c =>
      refine ⟨hmu, started ++ [⟨c.ops, 0⟩], by simp [hgs], ?_⟩
      simp only [List.mem_append, List.mem_singleton]
      rintro g' (hg' | rfl)
      · exact hpc g' hg'
      · rfl
    | advance j hadv =>
      rw [(hs.steps hss).advance_eq_none hi' hnext hheld j] at hadv
      cases hadv

theorem Server.updateConfigOps_get_two {cfg : Config} {loads : Bool}
    (hpath : certificateFiles cfg.tls = none ∨ loads = true) :
    (Server.updateConfigOps cfg loads)[2]? = some (.rlock .tls) := by
  unfold Server.updateConfigOps TLSManager.updateConfigOps
  rcases hpath with h | rfl
  · rw [h]; rfl
  · cases certificateFiles cfg.tls <;> rfl

/-- The paths of the lock model are those of the data model: with `loads` telling whether
`tls.LoadX509KeyPair` gives a certificate, `TLSManager.UpdateConfig` returns nil exactly on the
paths where its lock calls read-lock the mutex it holds. -/
theorem TLSManager.updateConfig_eq_ok_iff_path {Cert : Type}
    (loadX509KeyPair : String → String → Except String Cert) (m : TLSManager Cert)
    (tlsConfig : Option TLS) {loads : Bool}
    (hloads : ∀ t, certificateFiles tlsConfig = some t →
      (loads = true ↔ ∃ cert, loadX509KeyPair t.certFile t.keyFile = .ok cert)) :
    (m.updateConfig loadX509KeyPair tlsConfig).1 = .ok () ↔
      (certificateFiles tlsConfig = none ∨ loads = true) := by
  rw [TLSManager.updateConfig_eq_ok_iff]
  cases h : certificateFiles tlsConfig with
  | none => simp
  | some t => simp [hloads t h]

/-- `Server.UpdateConfig` never returns on the paths where `TLSManager.UpdateConfig` would
return nil: TLS disabled, or a new certificate that loads. Once the reload holds `Server.mu`
and `TLSManager.mu`, `notifyListeners` waits to read-lock the second, which it holds itself.
From then on the mutexes keep their words, and no goroutine makes another lock call, the reload
included: a request that gets a route never gets past `s.mu.RLock()`. -/
theorem Server.updateConfig_deadlocks {s : State} (hs : Reachable s) {i : Nat} {cfg : Config}
    {loads : Bool} (hpath : certificateFiles cfg.tls = none ∨ loads = true)
    (hi : s.goroutines[i]? = some ⟨Server.updateConfigOps cfg loads, 2⟩)
    {s' : State} (h : Relation.ReflTransGen Step s s') :
    s'.mutex = s.mutex ∧ ∃ started : List Goroutine,
      s'.goroutines = s.goroutines ++ started ∧ ∀ g ∈ started, g.pc = 0 :=
  hs.inv.frozen hi ⟨.tls, Server.updateConfigOps_get_two hpath⟩ (fun m => by cases m <;> exact Nat.one_pos) h

theorem Server.updateConfig_deadlocks_disabled :
    let s : State := ⟨fun _ => ⟨true, 0⟩, [⟨Server.updateConfigOps Config.empty false, 2⟩]⟩
    Reachable s ∧ certificateFiles Config.empty.tls = none ∧
      s.goroutines[0]? = some ⟨Server.updateConfigOps Config.empty false, 2⟩ ∧
      (s.mutex = s.mutex ∧ ∃ started : List Goroutine,
        s.goroutines = s.goroutines ++ started ∧ ∀ g ∈ started, g.pc = 0) :=
  have hrun : Reachable ⟨Function.update (Function.update (fun _ => RWMutex.free) .server ⟨true, 0⟩)
      .tls ⟨true, 0⟩, [⟨Server.updateConfigOps Config.empty false, 2⟩]⟩ :=
    .tail (.tail (.single (.start _ (.updateConfig Config.empty false))) (.advance 0 rfl))
      (.advance 0 rfl)
  have hword : Function.update (Function.update (fun _ => RWMutex.free) Mutex.server ⟨true, 0⟩)
      Mutex.tls ⟨true, 0⟩ = fun _ => ⟨true, 0⟩ := funext fun m => by cases m <;> rfl
  have hr : Reachable ⟨fun _ => ⟨true, 0⟩, [⟨Server.updateConfigOps Config.empty false, 2⟩]⟩ :=
    hword ▸ hrun
  have hpath : certificateFiles Config.empty.tls = none ∨ false = true := .inl rfl
  have hi : [(⟨Server.updateConfigOps Config.empty false, 2⟩ : Goroutine)][0]? =
      some ⟨Server.updateConfigOps Config.empty false, 2⟩ := rfl
  ⟨hr, rfl, rfl, Server.updateConfig_deadlocks hr hpath hi .refl⟩

end FluxGate.Proxy.Locking
