import FluxGate.Discovery.WellFormed

/-!
# A cluster gossiping its registries

Each node of a cluster holds a `discovery.Service` registry. A node takes a local `Register`
or `Deregister`; the deltas they queue reach any node through `NotifyMsg` any number of times
and in any order, or never; and a node merges, with `MergeRemoteState`, the `LocalState` any
node held at any earlier point, as a push-pull exchange with a lagging peer delivers it. The
memberlist is not modelled: which node hears what, and when, is the scheduler's choice. Every
registry of every run stays well formed.
-/

namespace FluxGate

open Discovery

/-- The deltas a list of effects queues for gossip. -/
def queued : List Effect → List Json
  | [] => []
  | .queueBroadcast msg :: rest => msg :: queued rest
  | .notifyListeners _ :: rest => queued rest

/-- A cluster as gossip leaves it: the registry of each node, every delta ever queued, and every
registry any node has held. -/
structure Cluster (Node : Type) where
  registry : Node → Service
  sent : List Json
  history : List Service

variable {Node : Type}

namespace Cluster

def init : Cluster Node := ⟨fun _ => Service.empty, [], [Service.empty]⟩

/-- Every registry a node holds, or has held, is well formed. -/
structure WellFormed (c : Cluster Node) : Prop where
  registry : ∀ n, (c.registry n).WellFormed
  history : ∀ s ∈ c.history, s.WellFormed

theorem wellFormed_init : (init : Cluster Node).WellFormed :=
  ⟨fun _ => Service.wellFormed_empty, fun s hs => by
    rw [List.mem_singleton.mp hs]; exact Service.wellFormed_empty⟩

variable [DecidableEq Node]

def set (c : Cluster Node) (n : Node) (s' : Service) (msgs : List Json) : Cluster Node :=
  ⟨Function.update c.registry n s', c.sent ++ msgs, c.history ++ [s']⟩

inductive Step : Cluster Node → Cluster Node → Prop
  | register (c : Cluster Node) (n : Node) (inst : ServiceInstance) :
      Step c (c.set n ((c.registry n).run (.register inst)).1
        (queued ((c.registry n).run (.register inst)).2))
  | deregister (c : Cluster Node) (n : Node) (order : List String)
      (horder : order.Perm (c.registry n).services.keys) (serviceID : String) :
      Step c (c.set n ((c.registry n).run (.deregister order serviceID)).1
        (queued ((c.registry n).run (.deregister order serviceID)).2))
  | deliver (c : Cluster Node) (n : Node) (msg : Json) (hmsg : msg ∈ c.sent) (order : List String)
      (horder : order.Perm (c.registry n).services.keys) :
      Step c (c.set n ((c.registry n).notifyMsg order (some msg)).1 [])
  | merge (c : Cluster Node) (n : Node) (past : Service) (hpast : past ∈ c.history) :
      Step c (c.set n ((c.registry n).mergeRemoteState (some past.localState)).1 [])

inductive Reachable : Cluster Node → Prop
  | init : Reachable init
  | step {c c' : Cluster Node} : Reachable c → Step c c' → Reachable c'

theorem WellFormed.set {c : Cluster Node} (h : c.WellFormed) (n : Node) {s' : Service}
    (hs' : s'.WellFormed) (msgs : List Json) : (c.set n s' msgs).WellFormed := by
  refine ⟨fun m => ?_, fun s hs => ?_⟩
  · simp only [Cluster.set, Function.update_apply]
    split
    · exact hs'
    · exact h.registry m
  · rcases List.mem_append.mp hs with hs | hs
    · exact h.history s hs
    · exact List.mem_singleton.mp hs ▸ hs'

theorem WellFormed.step {c c' : Cluster Node} (h : c.WellFormed) (hs : Step c c') : c'.WellFormed := by
  cases hs with
  | register n inst => exact h.set n ((h.registry n).put inst) _
  | deregister n order _ serviceID =>
    exact h.set n (by
      simp only [Service.run, Service.deregister]
      cases hr : (c.registry n).removeId serviceID order
      · exact h.registry n
      · exact (h.registry n).removeId hr) _
  | deliver n msg _ order _ => exact h.set n ((h.registry n).notifyMsg order _) _
  | merge n past hpast => exact h.set n ((h.registry n).mergeLocalState (h.history past hpast)) _

theorem Reachable.wellFormed {c : Cluster Node} (h : Reachable c) : c.WellFormed := by
  induction h with
  | init => exact wellFormed_init
  | step _ hs ih => exact ih.step hs

/-- In every run of the cluster, whatever deltas are lost, repeated or reordered and whichever
past states are merged, every node's registry stays well formed: under each service key every
instance names that service, and no two share an `ID`. -/
theorem registries_wellFormed (c : Cluster Node) (h : Reachable c) :
    ∀ n, ∀ k, (∀ inst ∈ (c.registry n).getInstances k, inst.service = k) ∧
      (((c.registry n).getInstances k).map (·.id)).Nodup :=
  fun n k => h.wellFormed.registry n k

theorem registries_wellFormed_gossiped :
    let inst : ServiceInstance := ⟨"i", "s", "h", 1, StrMap.empty⟩
    let c₁ := (init : Cluster Bool).set true ((Service.empty.run (.register inst)).1)
      (queued (Service.empty.run (.register inst)).2)
    let c₂ := c₁.set false ((c₁.registry false).notifyMsg [] (some (Service.registerDelta inst))).1 []
    let c₃ := c₂.set false ((c₂.registry false).mergeRemoteState
      (some (Service.empty.run (.register inst)).1.localState)).1 []
    Reachable c₃ ∧ ∀ n, ∀ k, (∀ inst ∈ (c₃.registry n).getInstances k, inst.service = k) ∧
      (((c₃.registry n).getInstances k).map (·.id)).Nodup := by
  intro inst c₁ c₂ c₃
  have h : Reachable c₃ :=
    .step (.step (.step .init (.register _ true inst)) (.deliver _ false _ (List.mem_append_right _ (List.mem_singleton_self _)) [] (by decide)))
      (.merge _ false _ (List.mem_append_left _ (List.mem_append_right _ (List.mem_singleton_self _))))
  exact ⟨h, registries_wellFormed c₃ h⟩

end Cluster

end FluxGate
