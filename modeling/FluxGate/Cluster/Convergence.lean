import FluxGate.Discovery.View
import FluxGate.Cluster.Gossip

/-!
# Convergence of a gossiping cluster

The cluster of the convergence law: each node holds a registry; a local `Register` or
`Deregister` puts its delta on a FIFO channel to every other node; each delta is delivered once,
in order, through `NotifyMsg`; and a node may merge, with `MergeRemoteState`, the current
`LocalState` of another. Every `ID` is registered and deregistered at one node only, its owner.

That is not enough for the nodes to agree once no delta is in flight: a merge can bring back
an instance whose deregister delta is still on its way to the merged node. They agree when, in
addition, every `ID` is registered under one service with a port `float64` holds exactly, and a
node merges only the state of a node no delta is in flight to. The proof follows each `ID` on
its own: the view of `x` at any node, caught up with the deltas still in flight to it from the
owner of `x`, is the owner's view.
-/

namespace FluxGate

open Discovery

/-- A cluster whose deltas travel on one FIFO channel per ordered pair of nodes. -/
structure Net (Node : Type) where
  registry : Node → Service
  chan : Node → Node → List Json

variable {Node : Type} [DecidableEq Node]

namespace Net

def init : Net Node := ⟨fun _ => Service.empty, fun _ _ => []⟩

def Quiescent (c : Net Node) : Prop := ∀ src dst, c.chan src dst = []

/-- Node `n` now holds `s'`, having put `msgs` in flight to every other node. -/
def update (c : Net Node) (n : Node) (s' : Service) (msgs : List Json) : Net Node :=
  ⟨Function.update c.registry n s',
    fun src dst => if src = n ∧ dst ≠ n then c.chan src dst ++ msgs else c.chan src dst⟩

/-- Node `dst` now holds `s'`, having taken the head of the channel from `src`, which leaves
`rest`. -/
def receive (c : Net Node) (src dst : Node) (rest : List Json) (s' : Service) : Net Node :=
  ⟨Function.update c.registry dst s', fun a b => if a = src ∧ b = dst then rest else c.chan a b⟩

@[simp] theorem registry_update (c : Net Node) (n : Node) (s' : Service) (msgs : List Json) (m : Node) :
    (c.update n s' msgs).registry m = if m = n then s' else c.registry m :=
  Function.update_apply _ _ _ _

@[simp] theorem chan_update (c : Net Node) (n : Node) (s' : Service) (msgs : List Json) (a b : Node) :
    (c.update n s' msgs).chan a b = if a = n ∧ b ≠ n then c.chan a b ++ msgs else c.chan a b := rfl

@[simp] theorem registry_receive (c : Net Node) (src dst : Node) (rest : List Json) (s' : Service)
    (m : Node) : (c.receive src dst rest s').registry m = if m = dst then s' else c.registry m :=
  Function.update_apply _ _ _ _

@[simp] theorem chan_receive (c : Net Node) (src dst : Node) (rest : List Json) (s' : Service) (a b : Node) :
    (c.receive src dst rest s').chan a b = if a = src ∧ b = dst then rest else c.chan a b := rfl

section Steps

variable (owner : String → Node) (svc : String → String) (careful : Bool)

/-- The steps of the cluster; `owner` is the node each `ID` is registered and deregistered at.
With `careful`, every `ID` is registered under the service `svc` gives it with a port of
magnitude below `2^53`, and a node merges only the state of a node no delta is in flight to. -/
inductive Step : Net Node → Net Node → Prop
  | register (c : Net Node) (n : Node) (inst : ServiceInstance) (hown : owner inst.id = n)
      (hcareful : careful = true → inst.service = svc inst.id ∧ inst.port.toInt.natAbs < 2 ^ 53) :
      Step c (c.update n ((c.registry n).run (.register inst)).1
        (queued ((c.registry n).run (.register inst)).2))
  | deregister (c : Net Node) (n : Node) (order : List String)
      (horder : order.Perm (c.registry n).services.keys) (serviceID : String)
      (hown : owner serviceID = n) :
      Step c (c.update n ((c.registry n).run (.deregister order serviceID)).1
        (queued ((c.registry n).run (.deregister order serviceID)).2))
  | deliver (c : Net Node) (src dst : Node) (msg : Json) (rest : List Json)
      (hchan : c.chan src dst = msg :: rest) (order : List String)
      (horder : order.Perm (c.registry dst).services.keys) :
      Step c (c.receive src dst rest ((c.registry dst).notifyMsg order (some msg)).1)
  | exchange (c : Net Node) (n m : Node) (hnm : n ≠ m)
      (hcareful : careful = true → ∀ o, c.chan o m = []) :
      Step c (c.update n ((c.registry n).mergeRemoteState (some (c.registry m).localState)).1 [])

inductive Reachable : Net Node → Prop
  | init : Reachable init
  | step {c c' : Net Node} : Reachable c → Step owner svc careful c c' → Reachable c'

end Steps

set_option maxRecDepth 2000 in
/-- Node `true` owns every `ID`. It registers `i`, the delta reaches `false`, it deregisters `i`
and merges the state of `false` before the deregister delta arrives there; then it arrives. -/
theorem merge_resurrects_deregistered :
    ∃ c : Net Bool, Reachable (fun _ => true) (fun _ => "s") false c ∧ c.Quiescent ∧
      (⟨"i", "s", "h", 1, StrMap.empty⟩ : ServiceInstance) ∈ (c.registry true).getInstances "s" ∧
      (c.registry false).getInstances "s" = [] := by
  refine ⟨_, .step (.step (.step (.step (.step .init
    (.register _ true ⟨"i", "s", "h", 1, StrMap.empty⟩ rfl (fun h => nomatch h)))
    (.deliver _ true false _ [] rfl [] (by exact .refl _)))
    (.deregister _ true ["s"] (by exact .refl _) "i" rfl))
    (.exchange _ true false (by decide) (fun h => nomatch h)))
    (.deliver _ true false (Service.deregisterDelta "i") [] (by rfl) ["s"] (by exact .refl _)), ?_, ?_, ?_⟩
  · intro a b; cases a <;> cases b <;> rfl
  · decide
  · decide

section Invariant

variable {owner : String → Node} {svc : String → String}

/-- The channel from `src` to `dst` carries deltas about `ID`s `src` owns, fit to travel, and
the view at `dst` of every `ID` `src` owns, caught up with them, is the view at `src`. -/
def InFlight (owner : String → Node) (svc : String → String) (c : Net Node) (src dst : Node) : Prop :=
  ∃ ds : List Delta, c.chan src dst = ds.map Delta.toJson ∧ (∀ d ∈ ds, owner d.id = src ∧ d.Fits svc) ∧
    ∀ x, owner x = src → catchUp x ds (idView svc (c.registry dst) x) = idView svc (c.registry src) x

structure Converging (owner : String → Node) (svc : String → String) (c : Net Node) : Prop where
  wellFormed : ∀ n, (c.registry n).WellFormed
  proper : ∀ n, (c.registry n).Proper svc
  noSelf : ∀ n, c.chan n n = []
  inFlight : ∀ src dst, InFlight owner svc c src dst

omit [DecidableEq Node] in
theorem InFlight.frame {c c' : Net Node} {a b : Node} (h : InFlight owner svc c a b)
    (hc : c'.chan a b = c.chan a b)
    (hv : ∀ x, owner x = a → idView svc (c'.registry b) x = idView svc (c.registry b) x ∧
      idView svc (c'.registry a) x = idView svc (c.registry a) x) :
    InFlight owner svc c' a b := by
  obtain ⟨ds, hds, hs, hx⟩ := h
  exact ⟨ds, hc.trans hds, hs, fun x hox => by rw [(hv x hox).1, (hv x hox).2]; exact hx x hox⟩

private theorem forall_update {P : Service → Prop} {r : Node → Service} (h : ∀ n, P (r n)) {n : Node}
    {s' : Service} (hs : P s') (m : Node) : P (Function.update r n s' m) := by
  rw [Function.update_apply]
  split
  exacts [hs, h m]

omit [DecidableEq Node] in
theorem Converging.idView_of_chan_nil {c : Net Node} (h : Converging owner svc c) {m : Node}
    (hin : ∀ o, c.chan o m = []) (x : String) :
    idView svc (c.registry m) x = idView svc (c.registry (owner x)) x := by
  obtain ⟨ds, hc, -, hx⟩ := h.inFlight (owner x) m
  rw [hin, eq_comm, List.map_eq_nil_iff] at hc
  subst hc
  exact hx x rfl

omit [DecidableEq Node] in
theorem converging_init : Converging owner svc (init : Net Node) :=
  ⟨fun _ => Service.wellFormed_empty, fun _ => Service.proper_empty, fun _ => rfl,
    fun _ _ => ⟨[], rfl, by simp, fun _ _ => rfl⟩⟩

theorem Converging.update {c : Net Node} (h : Converging owner svc c) {n : Node} {s' : Service}
    (ds : List Delta) (hw : s'.WellFormed) (hp : s'.Proper svc)
    (hds : ∀ d ∈ ds, owner d.id = n ∧ d.Fits svc)
    (hv : ∀ x, idView svc s' x = catchUp x ds (idView svc (c.registry n) x)) :
    Converging owner svc (c.update n s' (ds.map Delta.toJson)) := by
  refine ⟨forall_update h.wellFormed hw, forall_update h.proper hp, fun m => by simp [h.noSelf m],
    fun src dst => ?_⟩
  by_cases hsrc : src = n ∧ dst ≠ n
  · obtain ⟨rfl, hdst⟩ := hsrc
    obtain ⟨ds₀, hc, hs, hx⟩ := h.inFlight src dst
    refine ⟨ds₀ ++ ds, by simp [hdst, hc], fun d hd => ?_, fun x hox => ?_⟩
    · exact (List.mem_append.mp hd).elim (hs d) (hds d)
    · simp only [registry_update, hdst, if_false, if_true]
      rw [catchUp_append, hx x hox, hv x]
  by_cases hsn : src = n
  · obtain ⟨rfl, rfl⟩ : src = n ∧ dst = n := ⟨hsn, by simpa [hsn] using hsrc⟩
    exact ⟨[], by simp [h.noSelf], by simp, fun _ _ => rfl⟩
  · refine (h.inFlight src dst).frame (by simp [hsn]) fun x hox => ⟨?_, by simp [hsn]⟩
    have hne : ∀ d ∈ ds, d.id ≠ x := fun d hd hdx => hsn (hox ▸ hdx ▸ (hds d hd).1)
    simp only [registry_update]
    split
    · next hdn => rw [hv, catchUp_of_forall_ne hne, hdn]
    · rfl

theorem Converging.receive {c : Net Node} (h : Converging owner svc c) {src dst : Node} {msg : Json}
    {rest : List Json} (hchan : c.chan src dst = msg :: rest) {order : List String}
    (horder : order.Perm (c.registry dst).services.keys) :
    Converging owner svc (c.receive src dst rest ((c.registry dst).notifyMsg order (some msg)).1) := by
  obtain ⟨ds, hc, hs, hx⟩ := h.inFlight src dst
  obtain ⟨d, ds, rfl, rfl, rfl⟩ := List.map_eq_cons_iff.mp (hc.symm.trans hchan)
  have hsd : src ≠ dst := fun e => by simp [e, h.noSelf] at hchan
  have hd := hs d (List.mem_cons_self _ _)
  have hv := Service.idView_notifyMsg_toJson (h.wellFormed dst) (h.proper dst) horder hd.2
  -- Views of every `ID` other than `d.id`, and every view away from `dst`, are untouched.
  have hframe : ∀ m x, (m = dst → d.id ≠ x) →
      idView svc ((c.receive src dst (ds.map Delta.toJson)
        ((c.registry dst).notifyMsg order (some d.toJson)).1).registry m) x = idView svc (c.registry m) x := by
    intro m x hm
    simp only [registry_receive]
    split
    · next e => rw [e, hv, Delta.applyTo, if_neg (hm e)]
    · rfl
  refine ⟨forall_update h.wellFormed ((h.wellFormed dst).notifyMsg order _),
    forall_update h.proper ((h.proper dst).notifyMsg_toJson order hd.2), fun m => ?_, fun a b => ?_⟩
  · simp only [chan_receive]; split
    · next e => exact absurd (e.1.symm.trans e.2) hsd
    · exact h.noSelf m
  by_cases hab : a = src ∧ b = dst
  · obtain ⟨rfl, rfl⟩ := hab
    refine ⟨ds, by simp, fun d' hd' => hs d' (List.mem_cons_of_mem _ hd'), fun x hox => ?_⟩
    rw [hframe a x (fun e => absurd e hsd)]
    simpa [hv] using hx x hox
  · refine (h.inFlight a b).frame (by simp [hab]) fun x hox => ⟨hframe b x ?_, hframe a x ?_⟩
    · rintro rfl rfl; exact hab ⟨hox.symm.trans hd.1, rfl⟩
    · rintro rfl rfl; exact hsd (hd.1.symm.trans hox)

theorem Converging.exchange {c : Net Node} (h : Converging owner svc c) {n m : Node}
    (hin : ∀ o, c.chan o m = []) :
    Converging owner svc (c.update n ((c.registry n).mergeRemoteState (some (c.registry m).localState)).1 []) := by
  have hm := h.idView_of_chan_nil hin
  have hv : ∀ x, idView svc ((c.registry n).mergeRemoteState (some (c.registry m).localState)).1 x =
      (idView svc (c.registry m) x).or (idView svc (c.registry n) x) :=
    Service.idView_mergeLocalState (h.wellFormed m)
  have hown : ∀ x, owner x = n → idView svc ((c.registry n).mergeRemoteState
      (some (c.registry m).localState)).1 x = idView svc (c.registry n) x := fun x hox => by
    rw [hv, hm, hox, Option.or_self]
  refine ⟨forall_update h.wellFormed ((h.wellFormed n).mergeLocalState (h.wellFormed m)),
    forall_update h.proper ((h.proper n).mergeLocalState (h.wellFormed m) (h.proper m)),
    fun k => by simp [h.noSelf k], fun a b => ?_⟩
  have ha : ∀ x, owner x = a → idView svc ((c.update n ((c.registry n).mergeRemoteState
      (some (c.registry m).localState)).1 []).registry a) x = idView svc (c.registry a) x := by
    intro x hox
    rw [registry_update]
    split
    · next e => rw [hown x (hox.trans e), e]
    · rfl
  by_cases hb : b = n
  · subst hb
    obtain ⟨ds, hc, hs, hx⟩ := h.inFlight a b
    refine ⟨ds, by simp [hc], hs, fun x hox => ?_⟩
    rw [ha x hox, registry_update, if_pos rfl, hv, hm, hox]
    exact catchUp_or (hx x hox)
  · refine (h.inFlight a b).frame (by simp) fun x hox => ⟨by simp [hb], ha x hox⟩

theorem Converging.step {c c' : Net Node} (h : Converging owner svc c) (hs : Step owner svc true c c') :
    Converging owner svc c' := by
  cases hs with
  | register n inst hown hcareful =>
    obtain ⟨hsvc, hport⟩ := hcareful rfl
    exact h.update [.register inst] ((h.wellFormed n).put inst) ((h.proper n).put hsvc)
      (by simpa [Delta.id, Delta.Fits] using ⟨hown, hsvc, hport⟩) (Service.idView_put hsvc)
  | deregister n order horder serviceID hown =>
    simp only [Service.run, Service.deregister]
    cases hr : (c.registry n).removeId serviceID order with
    | none =>
      exact h.update [] (h.wellFormed n) (h.proper n) (by simp) fun _ => rfl
    | some s' =>
      exact h.update [.deregister serviceID] ((h.wellFormed n).removeId hr)
        ((h.proper n).removeId hr) (by simpa [Delta.id, Delta.Fits] using hown)
        (Service.idView_removeId (h.wellFormed n) (h.proper n) hr)
  | deliver src dst msg rest hchan order horder => exact h.receive hchan horder
  | exchange n m _ hcareful => exact h.exchange (hcareful rfl)

theorem Reachable.converging {c : Net Node} (h : Reachable owner svc true c) : Converging owner svc c := by
  induction h with
  | init => exact converging_init
  | step _ hs ih => exact ih.step hs

omit [DecidableEq Node] in
theorem Converging.getInstances_perm {c : Net Node} (hc : Converging owner svc c) (hq : c.Quiescent)
    (n m : Node) (k : String) : ((c.registry n).getInstances k).Perm ((c.registry m).getInstances k) := by
  have hnd : ∀ n, ((c.registry n).getInstances k).Nodup := fun n => (hc.wellFormed n k).2.of_map _
  rw [List.perm_ext_iff_of_nodup (hnd n) (hnd m)]
  intro inst
  rw [Service.mem_getInstances_iff (hc.wellFormed n) (hc.proper n),
    Service.mem_getInstances_iff (hc.wellFormed m) (hc.proper m),
    hc.idView_of_chan_nil (fun o => hq o n), hc.idView_of_chan_nil (fun o => hq o m)]

/-- In a careful run, once no delta is in flight, every node holds the same instances under
each service, up to their order. -/
theorem quiescent_registries_agree (owner : String → Node) (svc : String → String) (c : Net Node)
    (h : Reachable owner svc true c) (hq : c.Quiescent) (n m : Node) (k : String) :
    ((c.registry n).getInstances k).Perm ((c.registry m).getInstances k) :=
  h.converging.getInstances_perm hq n m k

set_option maxRecDepth 2000 in
theorem quiescent_registries_agree_registered :
    ∃ c : Net Bool, Reachable (fun _ => true) (fun _ => "s") true c ∧ c.Quiescent ∧
      (c.registry false).getInstances "s" = [⟨"i", "s", "h", 1, StrMap.empty⟩] ∧
      ∀ n m k, ((c.registry n).getInstances k).Perm ((c.registry m).getInstances k) := by
  have hr : Reachable (fun _ => true) (fun _ => "s") true _ := .step (.step .init
    (.register _ true ⟨"i", "s", "h", 1, StrMap.empty⟩ rfl fun _ => ⟨rfl, by decide⟩))
    (.deliver _ true false _ [] rfl [] (by exact .refl _))
  refine ⟨_, hr, ?_, by decide, quiescent_registries_agree _ _ _ hr ?_⟩ <;>
    · intro a b; cases a <;> cases b <;> rfl

end Invariant

end Net

end FluxGate
