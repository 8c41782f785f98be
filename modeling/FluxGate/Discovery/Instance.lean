import FluxGate.Json

/-!
# Service instances, the per-service lists, and their JSON form

`ServiceInstance` with its JSON codec as `encoding/json` runs it on the struct tags
(`id`, `service`, `address`, `port`, `metadata,omitempty`), and the two loops over a
per-service list that every registry operation is built from: `upsert` (replace the first
instance with the same `ID`, else append) and `dropId` (remove the first one).
-/

namespace FluxGate.Discovery

/-- `discovery.ServiceInstance`. A nil and an empty `Metadata` map are the same value here:
nothing in the gateway tells them apart, and `omitempty` prints neither. -/
structure ServiceInstance where
  id : String
  service : String
  address : String
  port : GoInt
  metadata : StrMap
  deriving DecidableEq

/-- The zero `ServiceInstance`, which decoding starts from. -/
def ServiceInstance.zero : ServiceInstance := ⟨"", "", "", 0, StrMap.empty⟩

/-- The loop shared by `Register`, the register branch of `NotifyMsg` and the second branch of
`MergeRemoteState`: the first instance with the same `ID` is replaced where it stands,
otherwise `inst` is appended. -/
def upsert (inst : ServiceInstance) : List ServiceInstance → List ServiceInstance
  | [] => [inst]
  | x :: rest => if x.id = inst.id then inst :: rest else x :: upsert inst rest

/-- The inner loop of `Deregister` and of the deregister branch of `NotifyMsg`: the list without
its first instance with that `ID`, or `none` when it holds none. -/
def dropId (serviceID : String) : List ServiceInstance → Option (List ServiceInstance)
  | [] => none
  | x :: rest =>
    if x.id = serviceID then some rest else (dropId serviceID rest).map (x :: ·)

def others (id : String) (l : List ServiceInstance) : List ServiceInstance :=
  l.filter fun x => x.id ≠ id

variable {i x : ServiceInstance} {l l' : List ServiceInstance} {id : String}

@[simp] theorem mem_upsert_self (i : ServiceInstance) (l : List ServiceInstance) : i ∈ upsert i l := by
  induction l with
  | nil => simp [upsert]
  | cons y l ih => by_cases h : y.id = i.id <;> simp [upsert, h, ih]

theorem mem_upsert (h : x ∈ upsert i l) : x = i ∨ x ∈ l := by
  induction l with
  | nil => simpa [upsert] using h
  | cons y l ih =>
    by_cases hy : y.id = i.id
    · simp only [upsert, hy, if_true, List.mem_cons] at h
      rcases h with h | h <;> simp [h]
    · simp only [upsert, hy, if_false, List.mem_cons] at h
      rcases h with h | h
      · simp [h]
      · rcases ih h with h | h <;> simp [h]

/-- `upsert` leaves every instance with another `ID` where it was. -/
@[simp] theorem others_upsert (i : ServiceInstance) (l : List ServiceInstance) :
    others i.id (upsert i l) = others i.id l := by
  induction l with
  | nil => simp [upsert, others]
  | cons y l ih =>
    by_cases h : y.id = i.id
    · simp [upsert, others, h]
    · simpa [upsert, others, h] using ih

theorem upsert_inj {i j : ServiceInstance} {l : List ServiceInstance} (h : upsert i l = upsert j l)
    (hid : i.id = j.id) : i = j := by
  induction l with
  | nil => simpa [upsert] using h
  | cons y l ih =>
    by_cases hy : y.id = i.id
    · simpa [upsert, hy, ← hid] using h
    · have hy' : y.id ≠ j.id := hid ▸ hy
      simp only [upsert, hy, hy', if_false, List.cons.injEq, true_and] at h
      exact ih h

theorem upsert_of_forall_ne (h : ∀ y ∈ l, y.id ≠ i.id) : upsert i l = l ++ [i] := by
  induction l with
  | nil => rfl
  | cons y l ih =>
    simp only [List.mem_cons, forall_eq_or_imp] at h
    simp [upsert, h.1, ih h.2]

theorem upsert_of_mem_ids_nodup (hl : (l.map (·.id)).Nodup) (hx : x ∈ l) (hid : x.id = i.id) :
    ∃ a b, l = a ++ x :: b ∧ upsert i l = a ++ i :: b := by
  induction l with
  | nil => simp at hx
  | cons y l ih =>
    simp only [List.map_cons, List.nodup_cons, List.mem_map] at hl
    rcases List.mem_cons.mp hx with rfl | hx
    · exact ⟨[], l, rfl, by simp [upsert, hid]⟩
    · have hy : y.id ≠ i.id := fun h => hl.1 ⟨x, hx, hid.trans h.symm⟩
      obtain ⟨a, b, rfl, hu⟩ := ih hl.2 hx
      exact ⟨y :: a, b, rfl, by simp [upsert, hy, hu]⟩

theorem ids_nodup_upsert (hl : (l.map (·.id)).Nodup) : ((upsert i l).map (·.id)).Nodup := by
  by_cases h : ∃ x ∈ l, x.id = i.id
  · obtain ⟨x, hx, hid⟩ := h
    obtain ⟨a, b, rfl, hu⟩ := upsert_of_mem_ids_nodup hl hx hid
    rw [hu]
    simpa [hid] using hl
  · push_neg at h
    rw [upsert_of_forall_ne h, List.map_append, List.nodup_append]
    refine ⟨hl, List.nodup_singleton _, ?_⟩
    simpa [List.disjoint_singleton] using fun x hx => h x hx

theorem dropId_eq_none_iff : dropId id l = none ↔ ∀ x ∈ l, x.id ≠ id := by
  induction l with
  | nil => simp [dropId]
  | cons y l ih => by_cases h : y.id = id <;> simp [dropId, h, ih]

theorem dropId_eq_some (h : dropId id l = some l') :
    ∃ a x b, l = a ++ x :: b ∧ l' = a ++ b ∧ x.id = id ∧ ∀ y ∈ a, y.id ≠ id := by
  induction l generalizing l' with
  | nil => simp [dropId] at h
  | cons y l ih =>
    by_cases hy : y.id = id
    · simp only [dropId, hy, if_true, Option.some.injEq] at h
      exact ⟨[], y, l, rfl, h.symm, hy, by simp⟩
    · simp only [dropId, hy, if_false, Option.map_eq_some'] at h
      obtain ⟨l₁, h₁, rfl⟩ := h
      obtain ⟨a, x, b, rfl, rfl, hx, ha⟩ := ih h₁
      exact ⟨y :: a, x, b, rfl, rfl, hx, by simpa [hy] using ha⟩

@[simp] theorem others_dropId (h : dropId id l = some l') : others id l' = others id l := by
  obtain ⟨a, x, b, rfl, rfl, hx, -⟩ := dropId_eq_some h
  simp [others, List.filter_append, hx]

theorem ids_nodup_dropId (hl : (l.map (·.id)).Nodup) (h : dropId id l = some l') :
    (l'.map (·.id)).Nodup := by
  obtain ⟨a, x, b, rfl, rfl, -, -⟩ := dropId_eq_some h
  simp only [List.map_append, List.map_cons] at hl ⊢
  exact hl.sublist (List.Sublist.append_left (List.sublist_cons_self _ _) _)

theorem not_mem_ids_dropId (hl : (l.map (·.id)).Nodup) (h : dropId id l = some l') :
    ∀ y ∈ l', y.id ≠ id := by
  obtain ⟨a, x, b, rfl, rfl, hx, -⟩ := dropId_eq_some h
  subst hx
  simp only [List.map_append, List.map_cons, List.nodup_append, List.nodup_cons] at hl
  intro y hy hyid
  rcases List.mem_append.mp hy with hy | hy
  · exact hl.2.2 (List.mem_map_of_mem (·.id) hy) (by simp [hyid])
  · exact hl.2.1.1 (hyid ▸ List.mem_map_of_mem (·.id) hy)

def findId (id : String) (l : List ServiceInstance) : Option ServiceInstance :=
  l.find? fun x => x.id = id

@[simp] theorem findId_upsert_self (i : ServiceInstance) (l : List ServiceInstance) :
    findId i.id (upsert i l) = some i := by
  induction l with
  | nil => simp [findId, upsert]
  | cons y l ih => by_cases h : y.id = i.id <;> simp_all [findId, upsert]

theorem findId_upsert_ne {j : ServiceInstance} (h : j.id ≠ id) (l : List ServiceInstance) :
    findId id (upsert j l) = findId id l := by
  induction l with
  | nil => simp [findId, upsert, h]
  | cons y l ih =>
    by_cases hy : y.id = j.id
    · have : y.id ≠ id := hy ▸ h
      simp [findId, upsert, hy, h, this]
    · by_cases hy' : y.id = id <;> simp_all [findId, upsert]

theorem upsert_eq_self (h : findId i.id l = some i) : upsert i l = l := by
  induction l with
  | nil => simp [findId] at h
  | cons y l ih =>
    by_cases hy : y.id = i.id
    · simp [findId, hy] at h
      simp [upsert, hy, h]
    · simp only [findId, List.find?_cons, hy, decide_False] at h
      simp [upsert, hy, ih h]

theorem findId_foldl_upsert_ne {L : List ServiceInstance} (h : ∀ j ∈ L, j.id ≠ id)
    (l : List ServiceInstance) : findId id (L.foldl (fun acc x => upsert x acc) l) = findId id l := by
  induction L generalizing l with
  | nil => rfl
  | cons j L ih =>
    simp only [List.mem_cons, forall_eq_or_imp] at h
    rw [List.foldl_cons, ih h.2, findId_upsert_ne h.1]

theorem findId_foldl_upsert {L : List ServiceInstance} (hL : (L.map (·.id)).Nodup)
    (l : List ServiceInstance) :
    ∀ i ∈ L, findId i.id (L.foldl (fun acc x => upsert x acc) l) = some i := by
  induction L generalizing l with
  | nil => simp
  | cons j L ih =>
    simp only [List.map_cons, List.nodup_cons, List.mem_map, not_exists, not_and] at hL
    intro i hi
    rcases List.mem_cons.mp hi with rfl | hi
    · rw [List.foldl_cons, findId_foldl_upsert_ne hL.1, findId_upsert_self]
    · exact ih hL.2 (upsert j l) i hi

theorem foldl_upsert_of_findId {L m : List ServiceInstance} (h : ∀ i ∈ L, findId i.id m = some i) :
    L.foldl (fun acc x => upsert x acc) m = m := by
  induction L with
  | nil => rfl
  | cons j L ih =>
    simp only [List.mem_cons, forall_eq_or_imp] at h
    rw [List.foldl_cons, upsert_eq_self h.1, ih h.2]

theorem foldl_upsert_idem {L : List ServiceInstance} (hL : (L.map (·.id)).Nodup)
    (l : List ServiceInstance) :
    L.foldl (fun acc x => upsert x acc) (L.foldl (fun acc x => upsert x acc) l) =
      L.foldl (fun acc x => upsert x acc) l :=
  foldl_upsert_of_findId (findId_foldl_upsert hL l)

theorem foldl_upsert_nil {L : List ServiceInstance} (hL : (L.map (·.id)).Nodup) :
    L.foldl (fun acc x => upsert x acc) [] = L := by
  suffices ∀ acc : List ServiceInstance, (∀ x ∈ acc, ∀ y ∈ L, x.id ≠ y.id) →
      L.foldl (fun acc x => upsert x acc) acc = acc ++ L by simpa using this [] (by simp)
  induction L with
  | nil => simp
  | cons j L ih =>
    intro acc hacc
    simp only [List.map_cons, List.nodup_cons, List.mem_map, not_exists, not_and] at hL
    rw [List.foldl_cons, upsert_of_forall_ne fun x hx => hacc x hx j (List.mem_cons_self _ _),
      ih hL.2 (acc ++ [j]) ?_, List.append_assoc, List.singleton_append]
    intro x hx y hy
    rcases List.mem_append.mp hx with hx | hx
    · exact hacc x hx y (List.mem_cons_of_mem _ hy)
    · rw [List.mem_singleton.mp hx]
      exact fun h => hL.1 y hy h.symm

theorem mem_foldl_upsert {L : List ServiceInstance} (h : x ∈ L.foldl (fun acc i => upsert i acc) l) :
    x ∈ L ∨ x ∈ l := by
  induction L generalizing l with
  | nil => exact .inr h
  | cons j L ih =>
    rcases ih h with h | h
    · exact .inl (List.mem_cons_of_mem _ h)
    · exact (mem_upsert h).elim (fun h => .inl (h ▸ List.mem_cons_self _ _)) .inr

theorem findId_eq_none_iff : findId id l = none ↔ ∀ x ∈ l, x.id ≠ id := by
  simp [findId]

theorem mem_of_findId_eq_some (h : findId id l = some x) : x ∈ l ∧ x.id = id :=
  ⟨List.mem_of_find?_eq_some h, by simpa using List.find?_some h⟩

theorem findId_of_mem (hl : (l.map (·.id)).Nodup) (h : x ∈ l) : findId x.id l = some x := by
  obtain ⟨a, b, rfl, hu⟩ := upsert_of_mem_ids_nodup hl h rfl
  have := findId_upsert_self x (a ++ x :: b)
  rwa [hu] at this

theorem findId_dropId_ne (hd : dropId id l = some l') {id' : String} (h : id ≠ id') :
    findId id' l' = findId id' l := by
  obtain ⟨a, x, b, rfl, rfl, rfl, -⟩ := dropId_eq_some hd
  simp [findId, List.find?_append, h]

theorem findId_foldl_upsert_or {L : List ServiceInstance} (hL : (L.map (·.id)).Nodup)
    (l : List ServiceInstance) (id : String) :
    findId id (L.foldl (fun acc x => upsert x acc) l) = (findId id L).or (findId id l) := by
  cases h : findId id L with
  | none => exact findId_foldl_upsert_ne (findId_eq_none_iff.mp h) l
  | some i =>
    obtain ⟨hi, rfl⟩ := mem_of_findId_eq_some h
    exact findId_foldl_upsert hL l i hi

/-- The exported fields of `ServiceInstance`, by their JSON names. -/
inductive Field
  | id | service | address | port | metadata
  deriving DecidableEq

/-- The field a JSON object key sets: `encoding/json` matches the key against the field names
exactly and then case-insensitively, and no two names of `ServiceInstance` fold alike. -/
def Field.ofKey (k : String) : Option Field :=
  let f := k.data.map foldRune
  if f = "ID".data then some .id
  else if f = "SERVICE".data then some .service
  else if f = "ADDRESS".data then some .address
  else if f = "PORT".data then some .port
  else if f = "METADATA".data then some .metadata
  else none

/-- Unmarshalling an object into the `Metadata` map, which Go reuses when it is already
allocated: each member sets its key; `null` sets the empty string. -/
def decodeMetadata (m : StrMap) : List (String × Json) → Except String StrMap
  | [] => .ok m
  | (k, .str v) :: rest => decodeMetadata (m.insert k v) rest
  | (k, .null) :: rest => decodeMetadata (m.insert k "") rest
  | _ :: _ => .error "json: cannot unmarshal into Go struct field ServiceInstance.metadata of type string"

/-- Unmarshalling one member into its field. `null` leaves a string or an `int` as it is and
sets the map to nil. -/
def setField (inst : ServiceInstance) : Field → Json → Except String ServiceInstance
  | .id, .str s => .ok { inst with id := s }
  | .service, .str s => .ok { inst with service := s }
  | .address, .str s => .ok { inst with address := s }
  | .port, .num n => match decodeInt n with
    | .ok p => .ok { inst with port := p }
    | .error e => .error e
  | .metadata, .obj kvs => match decodeMetadata inst.metadata kvs with
    | .ok m => .ok { inst with metadata := m }
    | .error e => .error e
  | .metadata, .null => .ok { inst with metadata := StrMap.empty }
  | _, .null => .ok inst
  | _, _ => .error "json: cannot unmarshal into Go struct field of type discovery.ServiceInstance"

/-- `json.Unmarshal` into a `ServiceInstance` holding `inst`: members in order, unknown keys
skipped, `null` a no-op. -/
def decodeInstance (inst : ServiceInstance) : Json → Except String ServiceInstance
  | .null => .ok inst
  | .obj kvs => decodeFields inst kvs
  | _ => .error "json: cannot unmarshal into Go value of type discovery.ServiceInstance"
where
  decodeFields (inst : ServiceInstance) : List (String × Json) → Except String ServiceInstance
  | [] => .ok inst
  | (k, v) :: rest => match Field.ofKey k with
    | some f => match setField inst f v with
      | .ok inst' => decodeFields inst' rest
      | .error e => .error e
    | none => decodeFields inst rest

/-- `json.Marshal` of a `ServiceInstance`: fields in declaration order, `metadata` omitted when
empty. -/
def ServiceInstance.toJson (inst : ServiceInstance) : Json :=
  .obj ([("id", .str inst.id), ("service", .str inst.service), ("address", .str inst.address),
    ("port", .num (encodeInt inst.port))] ++
    if inst.metadata.entries = [] then []
    else [("metadata", .obj (inst.metadata.entries.map fun e => (e.1, .str e.2)))])

theorem decodeMetadata_entries (m : StrMap) (l : List (String × String))
    (hl : (l.map Prod.fst).Nodup) :
    ∃ m', decodeMetadata m (l.map fun e => (e.1, .str e.2)) = .ok m' ∧
      ∀ k, m'.get? k = if k ∈ l.map Prod.fst then lookupEntry k l else m.get? k := by
  induction l generalizing m with
  | nil => exact ⟨m, rfl, by simp⟩
  | cons e l ih =>
    simp only [List.map_cons, List.nodup_cons] at hl
    obtain ⟨m', hm', hget⟩ := ih (m.insert e.1 e.2) hl.2
    refine ⟨m', by simpa [decodeMetadata] using hm', fun k => ?_⟩
    rw [hget k]
    by_cases hk : k ∈ l.map Prod.fst
    · have : e.1 ≠ k := fun h => hl.1 (h ▸ hk)
      simp [hk, lookupEntry, this]
    · by_cases he : e.1 = k
      · simp [hk, he, lookupEntry]
      · simp [hk, he, lookupEntry, Ne.symm he]

theorem decodeMetadata_toJson (m : StrMap) :
    decodeMetadata StrMap.empty (m.entries.map fun e => (e.1, .str e.2)) = .ok m := by
  obtain ⟨m', hm', hget⟩ := decodeMetadata_entries StrMap.empty m.entries m.keys_nodup
  rw [hm', StrMap.ext fun k => (hget k).trans ?_]
  split
  · rfl
  · next h => exact (StrMap.get?_eq_none h).symm

theorem decodeInstance_toJson (inst : ServiceInstance) :
    decodeInstance .zero inst.toJson = .ok inst := by
  obtain ⟨id, service, address, port, md⟩ := inst
  by_cases h : md.entries = []
  · have hmd' : md = StrMap.empty := by cases md; simp_all [StrMap.empty]
    subst hmd'
    simp [ServiceInstance.toJson, decodeInstance, decodeInstance.decodeFields, Field.ofKey, setField,
      decodeInt_encodeInt, ServiceInstance.zero, foldRune, StrMap.empty]
  · simp [ServiceInstance.toJson, h, decodeInstance, decodeInstance.decodeFields, Field.ofKey,
      setField, decodeInt_encodeInt, ServiceInstance.zero, foldRune, decodeMetadata_toJson]

end FluxGate.Discovery
