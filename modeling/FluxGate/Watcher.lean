import FluxGate.Config
import Mathlib.Logic.Relation

/-!
# `config.Watcher`: reloading on a change of the file

`watch` runs in a goroutine of its own. On each `Write` or `Create` event on the file it stops
the timer the variable `debounce` holds, stores a new 100 ms timer in it, and starts a goroutine
that receives from `debounce.C` and then calls `Manager.Load`. The goroutine reads the variable
when it runs, so it may wait on a later timer than the one made with it; and `Stop` does not close
a timer's channel, so a goroutine that waits on a timer stopped before it fired waits forever.

Time is left out: the running timer may fire at any step, and an event may come before or after
it. Since Go 1.23 `Stop` also discards a tick no goroutine has taken; the repository names no Go
version, and both behaviours are steps. Events on other files, other operations and the errors of
the watcher change nothing and are left out, and so are the listener calls `Load` starts, since
no one subscribes to the manager.
-/

namespace FluxGate.Watcher

/-- A timer of `watch`: running, stopped before it fired, fired with its tick in the channel, or
fired with its tick taken. -/
inductive Timer
  | running
  | stopped
  | fired
  | taken
  deriving DecidableEq, Repr

/-- `debounce.Stop()`: a running timer never fires; a tick no goroutine has taken is discarded
when `drop` holds (Go 1.23 and later) and kept otherwise. -/
def Timer.stop (drop : Bool) : Timer → Timer
  | .running => .stopped
  | .fired => if drop then .stopped else .fired
  | t => t

/-- A goroutine `go func() { <-debounce.C; ...; w.manager.Load(w.filename) }()`: started when
`debounce` held timer `k` and not yet past reading the variable, waiting on the channel of
timer `t`, or done. -/
inductive Reloader
  | started (k : Nat)
  | waiting (t : Nat)
  | done
  deriving DecidableEq, Repr

/-- `watch` and the goroutines it started: the timers `debounce` held before, oldest first, and
the one it holds; the reload goroutines in the order they started; whether the loop returned;
and the config manager. -/
structure State where
  past : List Timer
  debounce : Timer
  reloaders : List Reloader
  returned : Bool
  manager : Manager

/-- The timers, numbered from the one of `time.NewTimer(0)`; the one `debounce` holds is last. -/
def State.timers (s : State) : List Timer := s.past ++ [s.debounce]

/-- `watch` past `debounce := time.NewTimer(0); <-debounce.C`, with the manager `m`. -/
def State.init (m : Manager) : State := ⟨[], .taken, [], false, m⟩

def State.take (s : State) (t : Nat) : State :=
  if t < s.past.length then { s with past := s.past.set t .taken } else { s with debounce := .taken }

section Steps

variable (durationString : GoInt → String) (toLower : String → String)
  (unmarshal : String → Except String Config)

/-- The manager after `Load` reads `r`; a failed load leaves it as it was. -/
def loaded (m : Manager) (r : ReadResult) : Manager :=
  match m.load durationString toLower unmarshal r with
  | .ok p => p.1
  | .error _ => m

/-- The steps of `watch` and its goroutines. -/
inductive Step : State → State → Prop
  /-- A `Write` or `Create` event on the file. -/
  | event (s : State) (drop : Bool) (h : s.returned = false) :
      Step s ⟨s.past ++ [s.debounce.stop drop], .running,
        s.reloaders ++ [.started (s.past.length + 1)], false, s.manager⟩
  /-- The 100 ms of the running timer pass. -/
  | fire (s : State) (h : s.debounce = .running) : Step s { s with debounce := .fired }
  /-- Reload goroutine `i` reads `debounce`: the timer it was started with or a later one. -/
  | read (s : State) (i k t : Nat) (h : s.reloaders[i]? = some (.started k)) (hk : k ≤ t)
      (ht : t ≤ s.past.length) : Step s { s with reloaders := s.reloaders.set i (.waiting t) }
  /-- Reload goroutine `i` takes the tick of its timer and calls `Load`, which reads `r`. -/
  | reload (s : State) (i t : Nat) (r : ReadResult) (h : s.reloaders[i]? = some (.waiting t))
      (ht : s.timers[t]? = some .fired) :
      Step s ⟨(s.take t).past, (s.take t).debounce, s.reloaders.set i .done, s.returned,
        loaded durationString toLower unmarshal s.manager r⟩
  /-- The loop returns: `Stop` closed `w.done`, or the event channel closed. -/
  | exit (s : State) : Step s { s with returned := true }

def Reachable (m : Manager) (s : State) : Prop :=
  Relation.ReflTransGen (Step durationString toLower unmarshal) (State.init m) s

end Steps

variable {durationString : GoInt → String} {toLower : String → String}
  {unmarshal : String → Except String Config}

theorem Reachable.manager {b : Bool} {m : Manager} (hm : Manager.Reachable durationString toLower unmarshal b m)
    {s : State} (hs : Reachable durationString toLower unmarshal m s) :
    ∃ b', Manager.Reachable durationString toLower unmarshal b' s.manager := by
  induction hs with
  | refl => exact ⟨b, hm⟩
  | @tail s₁ _ _ hst ih =>
    obtain ⟨b₁, ih⟩ := ih
    cases hst with
    | reload i t r =>
      show ∃ b', Manager.Reachable _ _ _ b' (loaded durationString toLower unmarshal s₁.manager r)
      unfold loaded
      split
      · next p hp => exact ⟨true, .load r ih hp⟩
      · exact ⟨b₁, ih⟩
    | _ => exact ⟨b₁, ih⟩

@[simp] theorem Timer.stop_eq_taken (drop : Bool) (x : Timer) : x.stop drop = .taken ↔ x = .taken := by
  cases x <;> cases drop <;> simp [Timer.stop]

theorem State.timers_take {s : State} {t : Nat} (ht : t ≤ s.past.length) :
    (s.take t).timers = s.timers.set t .taken := by
  unfold State.take State.timers
  split
  · next h => rw [List.set_append_left _ _ h]
  · next h => rw [List.set_append_right _ _ (by omega), show t - s.past.length = 0 by omega]; rfl

theorem count_set_of_getElem? {α : Type} [DecidableEq α] {l : List α} {i : Nat} {a : α}
    (h : l[i]? = some a) (b x : α) :
    (l.set i b).count x + (if a = x then 1 else 0) = l.count x + (if b = x then 1 else 0) := by
  obtain ⟨hi, rfl⟩ := List.getElem?_eq_some_iff.mp h
  rw [List.count_set _ _ _ _ hi]
  have := List.boole_getElem_le_count x l i hi
  simp only [beq_iff_eq] at this ⊢
  omega

/-- What every reachable state satisfies: one reload goroutine per event, and one taken tick
per finished reload besides the tick `watch` takes itself. -/
structure State.Inv (s : State) : Prop where
  started : s.reloaders.length = s.past.length
  done : s.reloaders.count .done + 1 = s.timers.count .taken

theorem State.Inv.init (m : Manager) : (State.init m).Inv := ⟨rfl, rfl⟩

theorem State.Inv.step {s s' : State} (hs : s.Inv) (h : Step durationString toLower unmarshal s s') :
    s'.Inv := by
  have hd := hs.done
  cases h with
  | event drop _ =>
    refine ⟨by simp [hs.started], ?_⟩
    simpa [State.timers, List.count_append, List.count_cons] using hd
  | fire hf =>
    refine ⟨hs.started, ?_⟩
    simpa [State.timers, List.count_append, List.count_singleton, hf] using hd
  | read i k t hi _ _ =>
    refine ⟨by simpa using hs.started, ?_⟩
    have := count_set_of_getElem? hi (.waiting t) .done
    simp only [reduceCtorEq, if_false] at this
    simp only [State.timers] at hd ⊢
    omega
  | reload i t r hi ht =>
    have htl : t ≤ s.past.length := by
      have := (List.getElem?_eq_some_iff.mp ht).1
      simp only [State.timers, List.length_append, List.length_singleton] at this
      omega
    refine ⟨by simpa [State.take, apply_ite] using hs.started, ?_⟩
    have h1 := count_set_of_getElem? hi .done .done
    have h2 := count_set_of_getElem? ht .taken .taken
    show (s.reloaders.set i .done).count .done + 1 = (s.take t).timers.count .taken
    rw [State.timers_take htl]
    simp only [reduceCtorEq, if_true, if_false] at h1 h2
    omega
  | exit => exact ⟨hs.started, hs.done⟩

theorem State.Inv.steps {s s' : State} (hs : s.Inv)
    (h : Relation.ReflTransGen (Step durationString toLower unmarshal) s s') : s'.Inv := by
  induction h with
  | refl => exact hs
  | tail _ hst ih => exact ih.step hst

/-- The loop has returned, and no timer runs or holds a tick. -/
def State.Idle (s : State) : Prop := s.returned = true ∧ ∀ x ∈ s.timers, x = .stopped ∨ x = .taken

theorem State.Idle.step {s s' : State} (hs : s.Idle) (h : Step durationString toLower unmarshal s s') :
    s'.Idle ∧ s'.timers = s.timers ∧ s'.reloaders.length = s.reloaders.length ∧
      s'.reloaders.count .done = s.reloaders.count .done := by
  cases h with
  | event _ h => rw [hs.1] at h; cases h
  | fire hf =>
    rcases hs.2 _ (List.mem_append_right _ (List.mem_singleton_self _)) with h | h <;>
      rw [hf] at h <;> cases h
  | read i k t hi _ _ =>
    have := count_set_of_getElem? hi (.waiting t) .done
    simp only [reduceCtorEq, if_false, add_zero] at this
    exact ⟨hs, rfl, List.length_set .., this⟩
  | reload i t r _ ht =>
    rcases hs.2 _ (List.getElem?_mem ht) with h | h <;> cases h
  | exit => exact ⟨⟨rfl, hs.2⟩, rfl, rfl, rfl⟩

theorem State.Idle.steps {s s' : State} (hs : s.Idle)
    (h : Relation.ReflTransGen (Step durationString toLower unmarshal) s s') :
    s'.Idle ∧ s'.timers = s.timers ∧ s'.reloaders.length = s.reloaders.length ∧
      s'.reloaders.count .done = s.reloaders.count .done := by
  induction h with
  | refl => exact ⟨hs, rfl, rfl, rfl⟩
  | tail _ hst ih =>
    obtain ⟨hi, ht, hl, hc⟩ := ih
    obtain ⟨hi', ht', hl', hc'⟩ := hi.step hst
    exact ⟨hi', ht'.trans ht, hl'.trans hl, hc'.trans hc⟩

theorem count_add_count_of_forall {l : List Timer} (h : ∀ x ∈ l, x = .stopped ∨ x = .taken) :
    l.count .stopped + l.count .taken = l.length := by
  induction l with
  | nil => rfl
  | cons x l ih =>
    rcases h x (List.mem_cons_self _ _) with rfl | rfl <;>
      simp [List.count_cons, ← ih fun y hy => h y (List.mem_cons_of_mem _ hy)] <;> omega

/-- Once the loop has returned and no timer runs or holds a tick, one reload goroutine per
stopped timer has not reloaded, and none ever will: each event that stopped a timer before its
tick was taken leaves a goroutine blocked on a channel nothing sends to. -/
theorem reloaders_leak {m : Manager} {s : State} (hs : Reachable durationString toLower unmarshal m s)
    (hidle : s.Idle) {s' : State} (h : Relation.ReflTransGen (Step durationString toLower unmarshal) s s') :
    s'.reloaders.length - s'.reloaders.count .done = s.timers.count .stopped ∧
      s'.reloaders.count .done = s.reloaders.count .done := by
  have hinv := (State.Inv.init m).steps hs
  obtain ⟨-, -, hl, hc⟩ := hidle.steps h
  have hsum := count_add_count_of_forall hidle.2
  have hlen : s.timers.length = s.past.length + 1 := by simp [State.timers]
  have := hinv.started
  have := hinv.done
  refine ⟨?_, hc⟩
  rw [hl, hc]
  omega

theorem reloaders_leak_burst :
    let s : State := ⟨[.taken, .stopped], .taken, [.waiting 1, .done], true,
      loaded (fun _ => "") id (fun _ => .error "") .new .notExist⟩
    Reachable (fun _ => "") id (fun _ => .error "") .new s ∧ s.Idle ∧
      (s.reloaders.length - s.reloaders.count .done = s.timers.count .stopped ∧
        s.reloaders.count .done = s.reloaders.count .done) := by
  intro s
  have hr : Reachable (fun _ => "") id (fun _ => .error "") .new s :=
    .tail (.tail (.tail (.tail (.tail (.tail (.tail .refl (.event _ false rfl)) (.event _ false rfl))
      (.fire _ rfl)) (.read _ 1 2 2 rfl le_rfl le_rfl)) (.reload _ 1 2 .notExist rfl rfl))
      (.read _ 0 1 1 rfl le_rfl (by decide))) (.exit _)
  have hidle : s.Idle := ⟨rfl, by decide⟩
  exact ⟨hr, hidle, reloaders_leak hr hidle .refl⟩

end FluxGate.Watcher
