import McpBridge.Lib.Bytes
/-!
# JSON values

The values of the JSON library the program uses: objects are maps ordered by
key, a number is an integer or a double (given by its bits), and strings are
byte strings that need not be UTF-8. Reading a field with the wrong type
throws; `JsonError` carries the library's message. Serialising a value throws
iff one of its strings, keys included, is not valid UTF-8 (`Json.utf8`).
-/

namespace McpBridge.Lib

inductive Json where
  | null
  | bool (b : Bool)
  | int (n : Int)
  | float (bits : UInt64)
  | str (s : Str)
  | arr (l : List Json)
  | obj (l : List (Str × Json))
deriving Repr, Inhabited

/-- An exception of the JSON library, with its `what()`. -/
structure JsonError where
  what : Str
deriving Repr, DecidableEq

/-- A computation that may throw returns through each of its parts. -/
theorem bind_eq_ok {ε α β : Type} {x : Except ε α} {f : α → Except ε β} {b : β} :
    (x >>= f) = .ok b ↔ ∃ a, x = .ok a ∧ f a = .ok b := by
  cases x with
  | error e =>
    constructor
    · intro h; cases h
    · rintro ⟨a, h, -⟩; cases h
  | ok a =>
    constructor
    · intro h; exact ⟨a, rfl, h⟩
    · rintro ⟨a', h, hf⟩; cases h; exact hf

/-! ## UTF-8 -/

/-- A continuation byte. -/
def isCont (c : UInt8) : Bool := 0x80 ≤ c && c ≤ 0xbf

/-- Well-formed UTF-8: no overlong form, no surrogate, nothing above U+10FFFF. -/
def validUtf8 : Str → Bool
  | [] => true
  | a :: s =>
    if a < 0x80 then validUtf8 s
    else if 0xc2 ≤ a ∧ a ≤ 0xdf then
      match s with
      | b :: s => isCont b && validUtf8 s
      | _ => false
    else if 0xe0 ≤ a ∧ a ≤ 0xef then
      match s with
      | b :: c :: s =>
        (if a = 0xe0 then 0xa0 ≤ b && b ≤ 0xbf else if a = 0xed then 0x80 ≤ b && b ≤ 0x9f else isCont b) &&
          isCont c && validUtf8 s
      | _ => false
    else if 0xf0 ≤ a ∧ a ≤ 0xf4 then
      match s with
      | b :: c :: d :: s =>
        (if a = 0xf0 then 0x90 ≤ b && b ≤ 0xbf else if a = 0xf4 then 0x80 ≤ b && b ≤ 0x8f else isCont b) &&
          isCont c && isCont d && validUtf8 s
      | _ => false
    else false

theorem validUtf8_cons_ascii {a : UInt8} (h : a < 0x80) (s : Str) : validUtf8 (a :: s) = validUtf8 s := by
  cases s <;> simp [validUtf8, h]

theorem validUtf8_ascii_append {s : Str} (h : ∀ c ∈ s, c < 0x80) (t : Str) : validUtf8 (s ++ t) = validUtf8 t := by
  induction s with
  | nil => rfl
  | cons c s ih =>
    rw [List.cons_append, validUtf8_cons_ascii (h c (by simp))]
    exact ih fun d hd => h d (by simp [hd])

theorem validUtf8_ascii {s : Str} (h : ∀ c ∈ s, c < 0x80) : validUtf8 s = true := by
  have happ := validUtf8_ascii_append h []
  rw [List.append_nil] at happ
  exact happ

theorem validUtf8_append {s t : Str} (hs : validUtf8 s = true) (ht : validUtf8 t = true) : validUtf8 (s ++ t) = true := by
  fun_induction validUtf8 s with
  | case1 => exact ht
  | case2 a s ha ih =>
    rw [List.cons_append, validUtf8_cons_ascii ha]
    exact ih hs
  | case3 a h1 h2 b s ih =>
    simp only [Bool.and_eq_true] at hs
    simp [validUtf8, h1, h2, hs.1, ih hs.2]
  | case5 a h1 h2 h3 b c s ih =>
    simp only [Bool.and_eq_true] at hs
    have h := ih hs.2
    simp only [List.cons_append, validUtf8, h1, if_false, h2, h3, if_true, hs.1, h, Bool.and_self, and_self]
  | case7 a h1 h2 h3 h4 b c d s ih =>
    simp only [Bool.and_eq_true] at hs
    have h := ih hs.2
    simp only [List.cons_append, validUtf8, h1, if_false, h2, h3, h4, if_true, hs.1, h, Bool.and_self, and_self]
  | case4 | case6 | case8 | case9 => cases hs

namespace Json

mutual
/-- Every string and key is valid UTF-8. -/
def utf8 : Json → Bool
  | .str s => validUtf8 s
  | .arr l => utf8List l
  | .obj l => utf8Fields l
  | _ => true

def utf8List : List Json → Bool
  | [] => true
  | j :: l => utf8 j && utf8List l

def utf8Fields : List (Str × Json) → Bool
  | [] => true
  | (k, j) :: l => validUtf8 k && utf8 j && utf8Fields l
end

/-! ## Types -/

def isObject : Json → Bool
  | .obj _ => true
  | _ => false

def isArray : Json → Bool
  | .arr _ => true
  | _ => false

def isString : Json → Bool
  | .str _ => true
  | _ => false

def isNumber : Json → Bool
  | .int _ => true
  | .float _ => true
  | _ => false

def typeName : Json → Str
  | .null => lit "null"
  | .bool _ => lit "boolean"
  | .int _ => lit "number"
  | .float _ => lit "number"
  | .str _ => lit "string"
  | .arr _ => lit "array"
  | .obj _ => lit "object"

/-! ## Objects -/

/-- `std::string`'s order. -/
def strLt : Str → Str → Bool
  | [], [] => false
  | [], _ :: _ => true
  | _ :: _, [] => false
  | a :: s, b :: t => if a = b then strLt s t else a < b

/-- Sets a field, keeping the keys in order. -/
def insertField (k : Str) (v : Json) : List (Str × Json) → List (Str × Json)
  | [] => [(k, v)]
  | (k', v') :: l =>
    if k = k' then (k, v) :: l
    else if strLt k k' then (k, v) :: (k', v') :: l
    else (k', v') :: insertField k v l

/-- An object written as `{{k, v}, …}`. -/
def ofFields (l : List (Str × Json)) : Json := .obj (l.foldl (fun o kv => insertField kv.1 kv.2 o) [])

/-- The value of a field. -/
def field? (k : Str) : List (Str × Json) → Option Json
  | [] => none
  | (k', v) :: l => if k' = k then some v else field? k l

/-- The value under a key. -/
def get? (k : Str) : Json → Option Json
  | .obj l => field? k l
  | _ => none

/-- `contains(key)`. -/
def contains (k : Str) (j : Json) : Bool := (j.get? k).isSome

/-! ## Reading fields -/

def typeError (id : Str) (what : Str) : JsonError :=
  ⟨lit "[json.exception.type_error." ++ id ++ lit "] " ++ what⟩

/-- `get<std::string>()`. -/
def asStr : Json → Except JsonError Str
  | .str s => .ok s
  | j => .error (typeError (lit "302") (lit "type must be string, but is " ++ j.typeName))

/-- `get<bool>()`. -/
def asBool : Json → Except JsonError Bool
  | .bool b => .ok b
  | j => .error (typeError (lit "302") (lit "type must be boolean, but is " ++ j.typeName))

/-- A double, truncated towards zero. -/
def truncDouble (bits : UInt64) : Int :=
  let e := (bits >>> 52).toNat % 0x800
  let m := bits.toNat % 0x10000000000000 + 0x10000000000000
  let a : Nat := if e = 0 then 0 else if 1075 ≤ e then m <<< (e - 1075) else m >>> (1075 - e)
  if bits >>> 63 = 1 then -(a : Int) else a

/-- A double as a 64-bit integer; where it does not fit, the processor gives the least one. -/
def doubleToInt64 (bits : UInt64) : Int64 :=
  let n := truncDouble bits
  if Int64.minValue.toInt ≤ n ∧ n ≤ Int64.maxValue.toInt then .ofInt n else Int64.minValue

def doubleToInt32 (bits : UInt64) : Int32 :=
  let n := truncDouble bits
  if Int32.minValue.toInt ≤ n ∧ n ≤ Int32.maxValue.toInt then .ofInt n else Int32.minValue

/-- `get<int64_t>()`: an unsigned integer from 2^63 on comes out negative. -/
def asInt : Json → Except JsonError Int64
  | .int n => .ok (.ofInt n)
  | .float b => .ok (doubleToInt64 b)
  | j => .error (typeError (lit "302") (lit "type must be number, but is " ++ j.typeName))

/-- `get<int>()`: a wider integer is cut to 32 bits, and a boolean is a number. -/
def asInt32 : Json → Except JsonError Int32
  | .bool b => .ok (if b then 1 else 0)
  | .int n => .ok (.ofInt n)
  | .float b => .ok (doubleToInt32 b)
  | j => .error (typeError (lit "302") (lit "type must be number, but is " ++ j.typeName))

/-- `value(key, default)`, read with `get`. -/
def value {α : Type} (get : Json → Except JsonError α) (k : Str) (dflt : α) (j : Json) : Except JsonError α :=
  if j.isObject then
    match j.get? k with
    | some v => get v
    | none => .ok dflt
  else .error (typeError (lit "306") (lit "cannot use value() with " ++ j.typeName))

/-- `at(key)`. -/
def at_ (j : Json) (k : Str) : Except JsonError Json :=
  if j.isObject then
    match j.get? k with
    | some v => .ok v
    | none => .error ⟨lit "[json.exception.out_of_range.403] key '" ++ k ++ lit "' not found"⟩
  else .error (typeError (lit "304") (lit "cannot use at() with " ++ j.typeName))

/-- `j[key] = v`: a null becomes an object. -/
def set (j : Json) (k : Str) (v : Json) : Except JsonError Json :=
  match j with
  | .obj l => .ok (.obj (insertField k v l))
  | .null => .ok (.obj [(k, v)])
  | j => .error (typeError (lit "305") (lit "cannot use operator[] with a string argument with " ++ j.typeName))

end Json

end McpBridge.Lib
