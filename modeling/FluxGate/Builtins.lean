import Mathlib.Data.List.Basic
import Mathlib.Data.List.Nodup
import Mathlib.Data.List.Lex
import Mathlib.Data.Char
import Mathlib.Algebra.Group.Int
import Mathlib.Algebra.Group.Nat.Basic

/-!
# Go built-ins the gateway relies on

Go's `int` is a 64-bit two's-complement word. A Go map is the association list of its
entries, one per key; Go randomises the order in which `range` visits them, so where the
code's behaviour depends on that order it is an explicit argument of the model. Go strings
are modelled as Lean strings: every string that reaches the modelled code from JSON is valid
UTF-8, and on valid UTF-8 the byte-wise comparisons of package `strings` agree with
comparisons of characters.
-/

namespace FluxGate

/-- Go's `int`, 64 bits wide. -/
abbrev GoInt := BitVec 64

theorem GoInt.ofInt_toInt (x : GoInt) : BitVec.ofInt 64 x.toInt = x := by
  rw [← BitVec.toInt_inj, BitVec.toInt_ofInt, BitVec.toInt_eq_toNat_bmod, Int.bmod_bmod]

/-- Go's `int` range: the values `BitVec.ofInt 64` keeps. -/
def GoInt.InRange (n : Int) : Prop := -2^63 ≤ n ∧ n < 2^63

instance (n : Int) : Decidable (GoInt.InRange n) := inferInstanceAs (Decidable (_ ∧ _))

theorem GoInt.toInt_ofInt_of_inRange {n : Int} (h : GoInt.InRange n) :
    (BitVec.ofInt 64 n).toInt = n := by
  rw [BitVec.toInt_ofInt, Int.bmod_def]
  unfold GoInt.InRange at h
  split <;> omega

theorem GoInt.toInt_inRange (x : GoInt) : GoInt.InRange x.toInt := by
  rw [BitVec.toInt_eq_toNat_bmod]
  exact ⟨by have := Int.le_bmod (x := x.toNat) (m := 2^64) (by decide); omega,
    by have := Int.bmod_lt (x := x.toNat) (m := 2^64) (by decide); omega⟩

/-- `m[k] = v` on an association list: the entry of `k` is replaced where it stands, a new
key is appended. -/
def setEntry {κ ν : Type} [DecidableEq κ] (k : κ) (v : ν) : List (κ × ν) → List (κ × ν)
  | [] => [(k, v)]
  | (k', v') :: rest => if k' = k then (k, v) :: rest else (k', v') :: setEntry k v rest

theorem setEntry_of_not_mem {κ ν : Type} [DecidableEq κ] {k : κ} {v : ν} {l : List (κ × ν)}
    (h : k ∉ l.map Prod.fst) : setEntry k v l = l ++ [(k, v)] := by
  induction l with
  | nil => rfl
  | cons e l ih =>
    simp only [List.map_cons, List.mem_cons, not_or] at h
    simp [setEntry, Ne.symm h.1, ih h.2]

/-- `v, ok := m[k]` on an association list. -/
def lookupEntry {κ ν : Type} [DecidableEq κ] (k : κ) : List (κ × ν) → Option ν
  | [] => none
  | (k', v) :: rest => if k' = k then some v else lookupEntry k rest

/-- A Go map: one entry per key, in the order the model happens to keep them. -/
structure GoMap (κ ν : Type) [DecidableEq κ] where
  entries : List (κ × ν)
  nodup : (entries.map Prod.fst).Nodup

namespace GoMap

variable {κ ν μ : Type} [DecidableEq κ]

instance [DecidableEq ν] : DecidableEq (GoMap κ ν) := fun a b =>
  decidable_of_iff (a.entries = b.entries) (by cases a; cases b; simp)

def empty : GoMap κ ν := ⟨[], List.nodup_nil⟩

def keys (m : GoMap κ ν) : List κ := m.entries.map Prod.fst

def get? (m : GoMap κ ν) (k : κ) : Option ν := lookupEntry k m.entries

theorem keys_setEntry (k : κ) (v : ν) (l : List (κ × ν)) :
    (setEntry k v l).map Prod.fst = if k ∈ l.map Prod.fst then l.map Prod.fst
      else l.map Prod.fst ++ [k] := by
  induction l with
  | nil => simp [setEntry]
  | cons e l ih =>
    obtain ⟨k', v'⟩ := e
    by_cases h : k' = k
    · subst h; simp [setEntry]
    · by_cases hk : k ∈ l.map Prod.fst <;> simp_all [setEntry, Ne.symm h]

theorem nodup_setEntry (k : κ) (v : ν) {l : List (κ × ν)} (h : (l.map Prod.fst).Nodup) :
    ((setEntry k v l).map Prod.fst).Nodup := by
  rw [keys_setEntry]
  split
  · exact h
  · next hk => exact h.append (List.nodup_singleton k) (by simpa using hk)

def insert (m : GoMap κ ν) (k : κ) (v : ν) : GoMap κ ν :=
  ⟨setEntry k v m.entries, nodup_setEntry k v m.nodup⟩

def mapValues (f : ν → μ) (m : GoMap κ ν) : GoMap κ μ :=
  ⟨m.entries.map fun e => (e.1, f e.2), by simpa [Function.comp_def] using m.nodup⟩

@[simp] theorem get?_empty (k : κ) : (empty : GoMap κ ν).get? k = none := rfl

@[simp] theorem keys_empty : (empty : GoMap κ ν).keys = [] := rfl

theorem lookupEntry_setEntry (k k' : κ) (v : ν) (l : List (κ × ν)) :
    lookupEntry k' (setEntry k v l) = if k = k' then some v else lookupEntry k' l := by
  induction l with
  | nil => simp [setEntry, lookupEntry]
  | cons e l ih =>
    obtain ⟨k'', v'⟩ := e
    by_cases h : k'' = k
    · subst h; by_cases h' : k'' = k' <;> simp [setEntry, lookupEntry, h']
    · by_cases h' : k'' = k'
      · subst h'; simp [setEntry, lookupEntry, h, Ne.symm h]
      · simp [setEntry, lookupEntry, h, h', ih]

theorem lookupEntry_isSome_iff (k : κ) (l : List (κ × ν)) :
    (lookupEntry k l).isSome ↔ k ∈ l.map Prod.fst := by
  induction l with
  | nil => simp [lookupEntry]
  | cons e l ih =>
    obtain ⟨k', v'⟩ := e
    by_cases h : k' = k
    · subst h; simp [lookupEntry]
    · simp [lookupEntry, h, ih, Ne.symm h]

theorem lookupEntry_map (f : ν → μ) (k : κ) (l : List (κ × ν)) :
    lookupEntry k (l.map fun e => (e.1, f e.2)) = (lookupEntry k l).map f := by
  induction l with
  | nil => rfl
  | cons e l ih => by_cases h : e.1 = k <;> simp [lookupEntry, h, ih]

theorem mem_iff_lookupEntry {k : κ} {v : ν} {l : List (κ × ν)} (hl : (l.map Prod.fst).Nodup) :
    (k, v) ∈ l ↔ lookupEntry k l = some v := by
  induction l with
  | nil => simp [lookupEntry]
  | cons e l ih =>
    obtain ⟨k', v'⟩ := e
    simp only [List.map_cons, List.nodup_cons] at hl
    by_cases h : k' = k
    · subst h
      have : (k', v) ∉ l := fun hm => hl.1 (List.mem_map_of_mem Prod.fst hm)
      simp [lookupEntry, this, eq_comm]
    · simp [lookupEntry, h, ih hl.2, Ne.symm h]

@[simp] theorem get?_insert (m : GoMap κ ν) (k k' : κ) (v : ν) :
    (m.insert k v).get? k' = if k = k' then some v else m.get? k' :=
  lookupEntry_setEntry k k' v m.entries

theorem get?_isSome_iff (m : GoMap κ ν) (k : κ) : (m.get? k).isSome ↔ k ∈ m.keys :=
  lookupEntry_isSome_iff k m.entries

theorem get?_eq_none_iff (m : GoMap κ ν) (k : κ) : m.get? k = none ↔ k ∉ m.keys := by
  rw [← get?_isSome_iff, Option.not_isSome_iff_eq_none]

@[simp] theorem mem_keys_insert (m : GoMap κ ν) (k k' : κ) (v : ν) :
    k' ∈ (m.insert k v).keys ↔ k' = k ∨ k' ∈ m.keys := by
  rw [← get?_isSome_iff, ← get?_isSome_iff, get?_insert]
  by_cases h : k = k'
  · subst h; simp
  · simp [h, Ne.symm h]

theorem keys_insert (m : GoMap κ ν) (k : κ) (v : ν) :
    (m.insert k v).keys = if k ∈ m.keys then m.keys else m.keys ++ [k] :=
  keys_setEntry k v m.entries

@[simp] theorem get?_mapValues (f : ν → μ) (m : GoMap κ ν) (k : κ) :
    (m.mapValues f).get? k = (m.get? k).map f :=
  lookupEntry_map f k m.entries

@[simp] theorem keys_mapValues (f : ν → μ) (m : GoMap κ ν) : (m.mapValues f).keys = m.keys := by
  simp [keys, mapValues, Function.comp_def]

theorem mem_entries_iff (m : GoMap κ ν) (k : κ) (v : ν) :
    (k, v) ∈ m.entries ↔ m.get? k = some v :=
  mem_iff_lookupEntry m.nodup

end GoMap

/-- The byte order `json.Marshal` sorts map keys by; on valid UTF-8 it is the order of
characters. -/
def keyLt (a b : String) : Prop := a.data < b.data

instance : DecidableRel keyLt := fun a b => inferInstanceAs (Decidable (a.data < b.data))

theorem keyLt_irrefl (a : String) : ¬ keyLt a a := lt_irrefl a.data

theorem keyLt_trans {a b c : String} (h₁ : keyLt a b) (h₂ : keyLt b c) : keyLt a c :=
  lt_trans (α := List Char) h₁ h₂

theorem keyLt_asymm {a b : String} (h : keyLt a b) : ¬ keyLt b a :=
  fun h' => keyLt_irrefl a (keyLt_trans h h')

theorem keyLt_trichotomy (a b : String) : keyLt a b ∨ a = b ∨ keyLt b a := by
  rcases lt_trichotomy a.data b.data with h | h | h
  · exact .inl h
  · exact .inr (.inl (String.ext h))
  · exact .inr (.inr h)

def insertKey (k v : String) : List (String × String) → List (String × String)
  | [] => [(k, v)]
  | (k', v') :: rest =>
    if k = k' then (k, v) :: rest
    else if keyLt k k' then (k, v) :: (k', v') :: rest
    else (k', v') :: insertKey k v rest

/-- A Go `map[string]string`, its entries kept in key order: the order `json.Marshal` prints
them in, and the one representation of each map. -/
structure StrMap where
  entries : List (String × String)
  sorted : entries.Pairwise fun a b => keyLt a.1 b.1

namespace StrMap

instance : DecidableEq StrMap := fun a b =>
  decidable_of_iff (a.entries = b.entries) (by cases a; cases b; simp)

def empty : StrMap := ⟨[], List.Pairwise.nil⟩

def get? (m : StrMap) (k : String) : Option String := lookupEntry k m.entries

theorem mem_insertKey {k v : String} {l : List (String × String)} {e : String × String}
    (h : e ∈ insertKey k v l) : e = (k, v) ∨ e ∈ l := by
  induction l with
  | nil => simpa [insertKey] using h
  | cons x l ih =>
    obtain ⟨k', v'⟩ := x
    simp only [insertKey] at h
    split_ifs at h <;> simp only [List.mem_cons] at h
    · rcases h with h | h <;> simp [h]
    · rcases h with h | h | h <;> simp [h]
    · rcases h with h | h
      · simp [h]
      · rcases ih h with h | h <;> simp [h]

theorem sorted_insertKey (k v : String) {l : List (String × String)}
    (hl : l.Pairwise fun a b => keyLt a.1 b.1) :
    (insertKey k v l).Pairwise fun a b => keyLt a.1 b.1 := by
  induction l with
  | nil => simp [insertKey]
  | cons x l ih =>
    obtain ⟨k', v'⟩ := x
    rw [List.pairwise_cons] at hl
    simp only [insertKey]
    split_ifs with h₁ h₂
    · subst h₁; exact List.pairwise_cons.mpr ⟨hl.1, hl.2⟩
    · refine List.pairwise_cons.mpr ⟨?_, List.pairwise_cons.mpr hl⟩
      intro e he
      rcases List.mem_cons.mp he with rfl | he
      · exact h₂
      · exact keyLt_trans h₂ (hl.1 e he)
    · have hlt : keyLt k' k := by
        rcases keyLt_trichotomy k k' with h | h | h
        · exact absurd h h₂
        · exact absurd h h₁
        · exact h
      refine List.pairwise_cons.mpr ⟨fun e he => ?_, ih hl.2⟩
      rcases mem_insertKey he with rfl | he
      · exact hlt
      · exact hl.1 e he

def insert (m : StrMap) (k v : String) : StrMap := ⟨insertKey k v m.entries, sorted_insertKey k v m.sorted⟩

theorem lookupEntry_insertKey (k k' v : String) (l : List (String × String)) :
    lookupEntry k' (insertKey k v l) = if k = k' then some v else lookupEntry k' l := by
  induction l with
  | nil => simp [insertKey, lookupEntry]
  | cons x l ih =>
    obtain ⟨k'', v'⟩ := x
    by_cases h₁ : k = k''
    · subst h₁; by_cases h : k = k' <;> simp [insertKey, lookupEntry, h]
    · by_cases h₂ : keyLt k k''
      · simp [insertKey, lookupEntry, h₁, h₂]
      · by_cases h : k'' = k'
        · subst h; simp [insertKey, lookupEntry, h₁, h₂]
        · simp [insertKey, lookupEntry, h₁, h₂, h, ih]

@[simp] theorem get?_insert (m : StrMap) (k k' v : String) :
    (m.insert k v).get? k' = if k = k' then some v else m.get? k' :=
  lookupEntry_insertKey k k' v m.entries

@[simp] theorem get?_empty (k : String) : empty.get? k = none := rfl

theorem lookupEntry_eq_none_of_lt {k : String} {l : List (String × String)}
    (h : ∀ e ∈ l, keyLt k e.1) : lookupEntry k l = none := by
  induction l with
  | nil => rfl
  | cons e l ih =>
    simp only [List.mem_cons, forall_eq_or_imp] at h
    have hne : e.1 ≠ k := fun he => keyLt_irrefl k (he ▸ h.1)
    simp [lookupEntry, hne, ih h.2]

theorem ext_entries {l₁ l₂ : List (String × String)}
    (h₁ : l₁.Pairwise fun a b => keyLt a.1 b.1) (h₂ : l₂.Pairwise fun a b => keyLt a.1 b.1)
    (h : ∀ k, lookupEntry k l₁ = lookupEntry k l₂) : l₁ = l₂ := by
  induction l₁ generalizing l₂ with
  | nil =>
    cases l₂ with
    | nil => rfl
    | cons e l₂ => simpa [lookupEntry] using (h e.1).symm
  | cons e₁ l₁ ih =>
    cases l₂ with
    | nil => simpa [lookupEntry] using h e₁.1
    | cons e₂ l₂ =>
      rw [List.pairwise_cons] at h₁ h₂
      -- A smaller head key is found in its own list and not in the other.
      have hhead : ∀ {a b : String × String} {la lb : List (String × String)}, keyLt a.1 b.1 →
          (∀ e ∈ lb, keyLt b.1 e.1) → lookupEntry a.1 (a :: la) ≠ lookupEntry a.1 (b :: lb) :=
        fun {a b la lb} hlt hb => by
          rw [lookupEntry_eq_none_of_lt (l := b :: lb)
            (List.forall_mem_cons.mpr ⟨hlt, fun e he => keyLt_trans hlt (hb e he)⟩)]
          simp [lookupEntry]
      have hk : e₁.1 = e₂.1 := by
        rcases keyLt_trichotomy e₁.1 e₂.1 with hlt | heq | hlt
        · exact absurd (h e₁.1) (hhead hlt h₂.1)
        · exact heq
        · exact absurd (h e₂.1).symm (hhead hlt h₁.1)
      have hv : e₁.2 = e₂.2 := by simpa [lookupEntry, hk] using h e₁.1
      have ht : l₁ = l₂ := ih h₁.2 h₂.2 fun k => by
        by_cases hke : e₁.1 = k
        · subst hke
          rw [lookupEntry_eq_none_of_lt h₁.1, hk, lookupEntry_eq_none_of_lt h₂.1]
        · simpa [lookupEntry, hke, hk ▸ hke] using h k
      rw [Prod.ext hk hv, ht]

theorem keys_nodup (m : StrMap) : (m.entries.map Prod.fst).Nodup := by
  refine (List.pairwise_map.mpr m.sorted).imp fun {a b} h => ?_
  rintro rfl
  exact keyLt_irrefl a h

theorem get?_eq_none {m : StrMap} {k : String} (h : k ∉ m.entries.map Prod.fst) : m.get? k = none :=
  Option.not_isSome_iff_eq_none.mp (mt (GoMap.lookupEntry_isSome_iff k m.entries).mp h)

theorem ext {m₁ m₂ : StrMap} (h : ∀ k, m₁.get? k = m₂.get? k) : m₁ = m₂ := by
  obtain ⟨l₁, h₁⟩ := m₁
  obtain ⟨l₂, h₂⟩ := m₂
  simpa using ext_entries h₁ h₂ h

end StrMap

def hasPrefix (s pre : String) : Bool := pre.data.isPrefixOf s.data

def hasSuffix (s suf : String) : Bool := suf.data.isSuffixOf s.data

def trimPrefix (s pre : String) : String :=
  if hasPrefix s pre then ⟨s.data.drop pre.data.length⟩ else s

def trimSuffix (s suf : String) : String :=
  if hasSuffix s suf then ⟨s.data.take (s.data.length - suf.data.length)⟩ else s

/-- The representative of a rune's simple case-fold orbit, as `strings.EqualFold` and the
field matching of `encoding/json` compare runes. Exact whenever the rune is compared with an
ASCII rune: ASCII letters fold together, and the only other runes folding onto ASCII letters
are U+017F (long s) and U+212A (Kelvin sign). -/
def foldRune (c : Char) : Char :=
  if 'a' ≤ c ∧ c ≤ 'z' then Char.ofNat (c.toNat - 32)
  else if c = 'ſ' then 'S'
  else if c = 'K' then 'K'
  else c

/-- `strings.EqualFold(s, t)`, for strings compared with ASCII text. -/
def equalFold (s t : String) : Bool := s.data.map foldRune == t.data.map foldRune

theorem equalFold_refl (s : String) : equalFold s s = true := by simp [equalFold]

theorem hasPrefix_iff (s pre : String) : hasPrefix s pre = true ↔ pre.data <+: s.data :=
  List.isPrefixOf_iff_prefix

theorem hasSuffix_iff (s suf : String) : hasSuffix s suf = true ↔ suf.data <:+ s.data :=
  List.isSuffixOf_iff_suffix

theorem hasPrefix_append (s t : String) : hasPrefix (s ++ t) s = true := by
  simp [hasPrefix_iff, String.data_append, List.prefix_append]

theorem trimPrefix_append (s t : String) : trimPrefix (s ++ t) s = t := by
  simp [trimPrefix, hasPrefix_append, String.data_append]

theorem hasPrefix_iff_exists (s pre : String) : hasPrefix s pre = true ↔ ∃ t, s = pre ++ t := by
  refine ⟨fun h => ?_, fun ⟨t, ht⟩ => ht ▸ hasPrefix_append pre t⟩
  obtain ⟨t, ht⟩ := (hasPrefix_iff s pre).mp h
  exact ⟨⟨t⟩, String.ext (by simp [String.data_append, ht])⟩

theorem trimSuffix_append (s t : String) : trimSuffix (s ++ t) t = s := by
  have h : hasSuffix (s ++ t) t = true := by
    simp [hasSuffix_iff, String.data_append, List.suffix_append]
  simp [trimSuffix, h, String.data_append]

theorem hasSuffix_append (s t : String) : hasSuffix (s ++ t) t = true := by
  simp [hasSuffix_iff, String.data_append, List.suffix_append]

end FluxGate
