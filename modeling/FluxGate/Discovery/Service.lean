import FluxGate.Discovery.Instance

/-!
# `discovery.Service`: the registry and the operations on it

Every operation of the registry: the local `Register` and `Deregister`, the two gossip
receive paths `NotifyMsg` and `MergeRemoteState`, and the state `LocalState` sends. An
operation returns its new state together with what it hands on: the delta it queues for
gossip and the snapshot `notifyListeners` gives to every listener. Go's `range` over the map
visits the keys in a random order; the scans whose outcome depends on it take that order as an
argument. The memberlist, the transmit queue and the lock are not modelled.
-/

namespace FluxGate.Discovery

/-- The `services` map of `discovery.Service`. A key holding `none` holds a nil slice, which
only adopting a `null` from a remote state leaves behind. -/
structure Service where
  services : GoMap String (Option (List ServiceInstance))

/-- What an operation hands on besides its new state. -/
inductive Effect
  /-- `s.broadcasts.QueueBroadcast`: a delta for the peers. -/
  | queueBroadcast (msg : Json)
  /-- `s.notifyListeners()`: a copy of the whole table for every listener. -/
  | notifyListeners (services : GoMap String (List ServiceInstance))

namespace Service

def empty : Service := ⟨GoMap.empty⟩

/-- `s.services[service]`: nil for an absent key and for a nil slice alike. -/
def lookup (s : Service) (service : String) : Option (List ServiceInstance) :=
  (s.services.get? service).join

def getInstances (s : Service) (service : String) : List ServiceInstance :=
  (s.lookup service).getD []

/-- `GetAllServices()`, the same copy `notifyListeners` hands to the listeners. -/
def getAllServices (s : Service) : GoMap String (List ServiceInstance) :=
  s.services.mapValues (·.getD [])

/-- The table change of `Register` and of the register branch of `NotifyMsg`. -/
def put (s : Service) (inst : ServiceInstance) : Service :=
  ⟨s.services.insert inst.service (some (upsert inst (s.getInstances inst.service)))⟩

/-- The delta `Register` queues: `{"action": "register", "instance": instance}`. -/
def registerDelta (inst : ServiceInstance) : Json :=
  .obj [("action", .str "register"), ("instance", inst.toJson)]

/-- The delta `Deregister` queues: `{"action": "deregister", "service_id": serviceID}`. -/
def deregisterDelta (serviceID : String) : Json :=
  .obj [("action", .str "deregister"), ("service_id", .str serviceID)]

def register (s : Service) (inst : ServiceInstance) : Service × List Effect :=
  (s.put inst, [.queueBroadcast (registerDelta inst), .notifyListeners (s.put inst).getAllServices])

/-- The scan of `Deregister` and of the deregister branch of `NotifyMsg`, over the services in
`order`: the first holding an instance with that `ID` loses its first such instance. -/
def removeId (s : Service) (serviceID : String) : List String → Option Service
  | [] => none
  | service :: rest => match dropId serviceID (s.getInstances service) with
    | some l => some ⟨s.services.insert service (some l)⟩
    | none => removeId s serviceID rest

/-- `Deregister(serviceID)`, Go's `range` visiting the services in `order`. -/
def deregister (s : Service) (order : List String) (serviceID : String) :
    Except String (Service × List Effect) :=
  match s.removeId serviceID order with
  | some s' => .ok (s', [.queueBroadcast (deregisterDelta serviceID), .notifyListeners s'.getAllServices])
  | none => .error ("service instance not found: " ++ serviceID)

/-- `json.Unmarshal(msg, &message)` into a `map[string]any`: `null` leaves the map nil. -/
def decodeMessage : Json → Except String (List (String × GoAny))
  | .null => .ok []
  | .obj kvs => decodeAny.decodeObject [] kvs
  | _ => .error "json: cannot unmarshal into Go value of type map[string]interface {}"

/-- The `switch action` of `NotifyMsg`: the new table when a branch applies. The instance of a
register delta is re-marshalled from the generic map and unmarshalled into a
`ServiceInstance`. -/
def applyMessage (s : Service) (order : List String) (message : List (String × GoAny)) :
    Option Service :=
  match lookupEntry "action" message with
  | some (.str "register") => match lookupEntry "instance" message with
    | some (.map instanceData) => match decodeInstance .zero (GoAny.map instanceData).marshal with
      | .ok inst => some (s.put inst)
      | .error _ => none
    | _ => none
  | some (.str "deregister") => match lookupEntry "service_id" message with
    | some (.str serviceID) => s.removeId serviceID order
    | _ => none
  | _ => none

/-- `NotifyMsg(msg)`: a delta from a peer, applied without re-broadcasting; the listeners are
notified when a branch applies. -/
def notifyMsg (s : Service) (order : List String) (msg : Payload) : Service × List Effect :=
  match msg with
  | none => (s, [])
  | some j => match decodeMessage j with
    | .error _ => (s, [])
    | .ok message => match s.applyMessage order message with
      | some s' => (s', [.notifyListeners s'.getAllServices])
      | none => (s, [])

/-- `json.Marshal` of a `[]ServiceInstance`: `null` for a nil slice. -/
def sliceJson : Option (List ServiceInstance) → Json
  | none => .null
  | some l => .arr (l.map ServiceInstance.toJson)

/-- `LocalState(join)`: `json.Marshal(s.services)`. Go prints the keys sorted; the only reader
decodes into a map, which does not depend on their order. -/
def localState (s : Service) : Json :=
  .obj (s.services.entries.map fun e => (e.1, sliceJson e.2))

/-- `json.Unmarshal(buf, &remoteServices)` into a `map[string][]ServiceInstance`. -/
def decodeServices : Json → Except String (GoMap String (Option (List ServiceInstance)))
  | .null => .ok GoMap.empty
  | .obj kvs => decodeEntries GoMap.empty kvs
  | _ => .error "json: cannot unmarshal into Go value of type map[string][]discovery.ServiceInstance"
where
  decodeList : List Json → Except String (List ServiceInstance)
  | [] => .ok []
  | x :: xs => match decodeInstance .zero x, decodeList xs with
    | .ok inst, .ok insts => .ok (inst :: insts)
    | .error e, _ => .error e
    | _, .error e => .error e
  decodeEntries (m : GoMap String (Option (List ServiceInstance))) :
      List (String × Json) → Except String (GoMap String (Option (List ServiceInstance)))
  | [] => .ok m
  | (k, .null) :: rest => decodeEntries (m.insert k none) rest
  | (k, .arr xs) :: rest => match decodeList xs with
    | .ok insts => decodeEntries (m.insert k (some insts)) rest
    | .error e => .error e
  | _ :: _ => .error "json: cannot unmarshal into Go value of type []discovery.ServiceInstance"

/-- One iteration of `MergeRemoteState`'s loop: a service the node lacks adopts the remote
list as it is, otherwise each remote instance is upserted into the local list in turn. -/
def mergeService (s : Service) (service : String) (instances : Option (List ServiceInstance)) :
    Service :=
  match s.lookup service with
  | none => ⟨s.services.insert service instances⟩
  | some l => ⟨s.services.insert service (some ((instances.getD []).foldl (fun acc i => upsert i acc) l))⟩

/-- `MergeRemoteState(buf, join)`. Each iteration touches only its own key, so the order in
which `range` visits the remote map does not matter. -/
def mergeRemoteState (s : Service) (buf : Payload) : Service × List Effect :=
  match buf with
  | none => (s, [])
  | some j => match decodeServices j with
    | .error _ => (s, [])
    | .ok remote =>
      let s' := remote.entries.foldl (fun s e => s.mergeService e.1 e.2) s
      (s', [.notifyListeners s'.getAllServices])

/-- An operation on a node's registry, with its input: a local `Register` or `Deregister`, a
gossip message or a remote state. `order` is the order `range` visits the keys in. -/
inductive Op
  | register (inst : ServiceInstance)
  | deregister (order : List String) (serviceID : String)
  | notifyMsg (order : List String) (msg : Payload)
  | mergeRemoteState (buf : Payload)

/-- An operation's scan visits the keys of the registry it runs on, each once. -/
def Op.Admissible (s : Service) : Op → Prop
  | .deregister order _ => order.Perm s.services.keys
  | .notifyMsg order _ => order.Perm s.services.keys
  | _ => True

/-- What an operation does to a registry and hands on. A `Deregister` that fails changes
nothing and hands nothing on. -/
def run (s : Service) : Op → Service × List Effect
  | .register inst => s.register inst
  | .deregister order serviceID => match s.deregister order serviceID with
    | .ok r => r
    | .error _ => (s, [])
  | .notifyMsg order msg => s.notifyMsg order msg
  | .mergeRemoteState buf => s.mergeRemoteState buf

inductive Reachable : Service → Prop
  | empty : Reachable empty
  | step {s : Service} (op : Op) : Reachable s → op.Admissible s → Reachable (s.run op).1

@[simp] theorem getInstances_put (s : Service) (inst : ServiceInstance) (k : String) :
    (s.put inst).getInstances k =
      if inst.service = k then upsert inst (s.getInstances inst.service) else s.getInstances k := by
  by_cases h : inst.service = k <;> simp [put, getInstances, lookup, h]

theorem mem_getInstances_put {s : Service} {inst x : ServiceInstance} {k : String}
    (hx : x ∈ (s.put inst).getInstances k) : (x = inst ∧ inst.service = k) ∨ x ∈ s.getInstances k := by
  rw [getInstances_put] at hx
  split at hx
  · next hk => exact (mem_upsert hx).imp (⟨·, hk⟩) (hk ▸ ·)
  · exact .inr hx

@[simp] theorem getInstances_empty (k : String) : empty.getInstances k = [] := rfl

@[simp] theorem getInstances_insert (s : Service) (k k' : String) (v : Option (List ServiceInstance)) :
    (⟨s.services.insert k v⟩ : Service).getInstances k' =
      if k = k' then v.getD [] else s.getInstances k' := by
  by_cases h : k = k' <;> simp [getInstances, lookup, h]

@[simp] theorem keys_put (s : Service) (inst : ServiceInstance) (k : String) :
    k ∈ (s.put inst).services.keys ↔ k = inst.service ∨ k ∈ s.services.keys := by
  simp [put]

end Service

end FluxGate.Discovery
