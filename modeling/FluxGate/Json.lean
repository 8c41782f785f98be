import FluxGate.Builtins
import Mathlib.Data.List.Sort

/-!
# The slice of `encoding/json` and `strconv` the gossip payloads go through

A payload is the JSON document `json.Unmarshal` parses it to. Numbers stay literals until a
decoder reads them: into a Go `int` only a literal with neither fraction nor exponent is
accepted (`strconv.ParseInt`), into `any` every literal becomes the nearest float64
(`strconv.ParseFloat`). `json.Marshal` of a float64 prints the shortest decimal that reads back
as the same float64; in `'f'` format below `1e21`. The model keeps of each printed text what a
later decoder can tell apart: its literal form and its value.
-/

namespace FluxGate

/-- A JSON number literal as a decoder sees its text: `int neg n` has neither fraction nor
exponent (`-12`), `dec neg m e` is any other literal (`1.5`, `1e3`) and denotes `m * 10^e`. -/
inductive NumLit
  | int (neg : Bool) (n : Nat)
  | dec (neg : Bool) (m : Nat) (e : Int)
  deriving DecidableEq, Repr

/-- A JSON document. Object members keep their order and may repeat a key. -/
inductive Json
  | null
  | bool (b : Bool)
  | num (n : NumLit)
  | str (s : String)
  | arr (xs : List Json)
  | obj (kvs : List (String × Json))
  deriving Repr

/-- A byte payload as `json.Unmarshal` parses it: the JSON document it holds, or `none` when
it is not JSON. -/
abbrev Payload := Option Json

/-- `⌊log₂ n⌋` (and `0` for `n = 0`), by halving. -/
def log2 (n : Nat) : Nat := go n n
where
  go : Nat → Nat → Nat
  | 0, _ => 0
  | fuel + 1, n => if n < 2 then 0 else go fuel (n / 2) + 1

/-- The binary exponent of the float64 nearest the positive rational `a / b`:
`⌊log₂ (a / b)⌋ - 52` for a normal one, `-1074` for a subnormal one. -/
def scaleExp (a b : Nat) : Int :=
  let k₀ : Int := (log2 a : Int) - log2 b
  let k := if (if 0 ≤ k₀ then b * 2 ^ k₀.toNat ≤ a else b ≤ a * 2 ^ (-k₀).toNat) then k₀
    else k₀ - 1
  max (k - 52) (-1074)

/-- `a / b` divided by `2^e` and rounded to an integer, to the nearest, ties to even. -/
def roundScaled (a b : Nat) (e : Int) : Nat :=
  let num := if 0 ≤ e then a else a * 2 ^ (-e).toNat
  let den := if 0 ≤ e then b * 2 ^ e.toNat else b
  let q := num / den
  let r := num % den
  if den < 2 * r ∨ (2 * r = den ∧ q % 2 = 1) then q + 1 else q

/-- The positive rational `a / b` rounded to the nearest float64, ties to even, as
`strconv.ParseFloat` rounds: mantissa and binary exponent, normal mantissas in
`[2^52, 2^53)` and subnormal ones at exponent `-1074`; `none` past the largest finite
float64. -/
def roundRat (a b : Nat) : Option (Nat × Int) :=
  if a = 0 then some (0, 0) else
  let e := scaleExp a b
  let m := roundScaled a b e
  let me : Nat × Int := if m = 2 ^ 53 then (2 ^ 52, e + 1) else (m, e)
  if 971 < me.2 then none else some me

/-- A finite float64 `(-1)^neg * mant * 2^exp`, as `roundRat` produces it. -/
structure Float64 where
  neg : Bool
  mant : Nat
  exp : Int
  deriving DecidableEq, Repr

/-- `strconv.ParseFloat(s, 64)` of a literal: `none` when it overflows. -/
def Float64.ofLit : NumLit → Option Float64
  | .int neg n => (roundRat n 1).map fun me => ⟨neg, me.1, me.2⟩
  | .dec neg m e =>
    (if 0 ≤ e then roundRat (m * 10 ^ e.toNat) 1 else roundRat m (10 ^ (-e).toNat)).map
      fun me => ⟨neg, me.1, me.2⟩

def Float64.natAbs? (f : Float64) : Option Nat :=
  if 0 ≤ f.exp then some (f.mant * 2 ^ f.exp.toNat)
  else if f.mant % 2 ^ (-f.exp).toNat = 0 then some (f.mant / 2 ^ (-f.exp).toNat) else none

/-- The shortest decimal reading back as the float64 `f`, whose integral magnitude is `V`:
the multiple of the largest power of ten that rounds back to `f`, the nearer of two, ties to
the even digit. -/
def shortestInt (f : Float64) (V : Nat) : Nat := go 22
where
  go : Nat → Nat
  | 0 => V
  | k + 1 =>
    let p := 10 ^ k
    let lo := V / p * p
    let hi := lo + p
    let backLo := decide (roundRat lo 1 = some (f.mant, f.exp))
    let backHi := decide (roundRat hi 1 = some (f.mant, f.exp))
    if backLo && backHi then
      if V - lo < hi - V then lo else if hi - V < V - lo then hi
      else if V / p % 2 = 0 then lo else hi
    else if backLo then lo else if backHi then hi else go k

/-- `json.Marshal` of a float64. An integral value below `1e21` prints as the integer literal
of its shortest decimal; any other prints with a fraction or an exponent, kept here as its
exact value, which reads back as the same float64 and never as an `int`. -/
def Float64.marshal (f : Float64) : NumLit :=
  match f.natAbs? with
  | some V => if V < 10 ^ 21 then .int f.neg (shortestInt f V) else exact
  | none => exact
where
  exact : NumLit := if 0 ≤ f.exp then .dec f.neg (f.mant * 2 ^ f.exp.toNat) 0
    else .dec f.neg (f.mant * 5 ^ (-f.exp).toNat) f.exp

/-- Unmarshalling a number into a Go `int`: `strconv.ParseInt` of the literal, in range. -/
def decodeInt : NumLit → Except String GoInt
  | .int neg n =>
    let v : Int := if neg then -(n : Int) else n
    if GoInt.InRange v then .ok (BitVec.ofInt 64 v) else .error "json: number out of range of int"
  | .dec .. => .error "json: cannot unmarshal number into Go value of type int"

/-- The literal `json.Marshal` prints for a Go `int`. -/
def encodeInt (x : GoInt) : NumLit := .int (x.toInt < 0) x.toInt.natAbs

theorem decodeInt_encodeInt (x : GoInt) : decodeInt (encodeInt x) = .ok x := by
  have h := GoInt.toInt_inRange x
  have hv : (if x.toInt < 0 then -((x.toInt.natAbs : Nat) : Int) else (x.toInt.natAbs : Int))
      = x.toInt := by split <;> omega
  simp only [decodeInt, encodeInt, decide_eq_true_eq, hv, if_pos h, GoInt.ofInt_toInt]

/-- A value decoded into `any`: `nil`, `bool`, `float64`, `string`, `[]any` or
`map[string]any`, whose keys are distinct. -/
inductive GoAny
  | nil
  | bool (b : Bool)
  | float (f : Float64)
  | str (s : String)
  | slice (xs : List GoAny)
  | map (kvs : List (String × GoAny))
  deriving Repr

/-- Unmarshalling into `any`. Every number goes through `strconv.ParseFloat`; a repeated object
key keeps its last value. Go records the first error and decodes on; every caller discards the
value on error, so stopping at the first is the same. -/
def decodeAny : Json → Except String GoAny
  | .null => .ok .nil
  | .bool b => .ok (.bool b)
  | .num n => match Float64.ofLit n with
    | some f => .ok (.float f)
    | none => .error "json: cannot unmarshal number into Go value of type float64"
  | .str s => .ok (.str s)
  | .arr xs => match decodeList xs with
    | .ok vs => .ok (.slice vs)
    | .error e => .error e
  | .obj kvs => match decodeObject [] kvs with
    | .ok vs => .ok (.map vs)
    | .error e => .error e
where
  decodeList : List Json → Except String (List GoAny)
  | [] => .ok []
  | x :: xs => match decodeAny x, decodeList xs with
    | .ok v, .ok vs => .ok (v :: vs)
    | .error e, _ => .error e
    | _, .error e => .error e
  decodeObject : List (String × GoAny) → List (String × Json) → Except String (List (String × GoAny))
  | acc, [] => .ok acc
  | acc, (k, v) :: rest => match decodeAny v with
    | .ok a => decodeObject (setEntry k a acc) rest
    | .error e => .error e

/-- `json.Marshal` orders map keys by their bytes. -/
def sortKeys {α : Type} (kvs : List (String × α)) : List (String × α) :=
  kvs.insertionSort fun a b => !decide (keyLt b.1 a.1)

def GoAny.marshal : GoAny → Json
  | .nil => .null
  | .bool b => .bool b
  | .float f => .num f.marshal
  | .str s => .str s
  | .slice xs => .arr (marshalList xs)
  | .map kvs => .obj (sortKeys (marshalObject kvs))
where
  marshalList : List GoAny → List Json
  | [] => []
  | x :: xs => x.marshal :: marshalList xs
  marshalObject : List (String × GoAny) → List (String × Json)
  | [] => []
  | (k, v) :: rest => (k, v.marshal) :: marshalObject rest

theorem sortKeys_of_sorted {α : Type} {l : List (String × α)}
    (h : l.Pairwise fun a b => keyLt a.1 b.1) : sortKeys l = l :=
  List.Sorted.insertionSort_eq (h.imp fun hab => by simpa using keyLt_asymm hab)

theorem decodeObject_strs (acc : List (String × GoAny)) (l : List (String × String))
    (hl : ((acc ++ l.map fun e => (e.1, GoAny.str e.2)).map Prod.fst).Nodup) :
    decodeAny.decodeObject acc (l.map fun e => (e.1, Json.str e.2)) =
      .ok (acc ++ l.map fun e => (e.1, GoAny.str e.2)) := by
  induction l generalizing acc with
  | nil => simp [decodeAny.decodeObject]
  | cons e l ih =>
    have hk : e.1 ∉ acc.map Prod.fst := by
      simp only [List.map_append, List.map_cons, List.nodup_append, List.nodup_cons] at hl
      exact fun h => hl.2.2 h (List.mem_cons_self _ _)
    have := ih (acc ++ [(e.1, GoAny.str e.2)]) (by simpa using hl)
    simp only [List.map_cons, decodeAny.decodeObject, decodeAny, setEntry_of_not_mem hk]
    simpa using this

theorem marshalObject_strs (l : List (String × String)) :
    GoAny.marshal.marshalObject (l.map fun e => (e.1, GoAny.str e.2)) =
      l.map fun e => (e.1, Json.str e.2) := by
  induction l with
  | nil => rfl
  | cons e l ih => simp [GoAny.marshal.marshalObject, GoAny.marshal, ih]

/-- The `int` a number reads back as after a round through `any`: parsed as a float64,
printed by `json.Marshal`, parsed by `strconv.ParseInt`. -/
def intThroughAny (n : NumLit) : Except String GoInt :=
  match Float64.ofLit n with
  | some f => decodeInt f.marshal
  | none => .error "json: cannot unmarshal number into Go value of type float64"

end FluxGate
