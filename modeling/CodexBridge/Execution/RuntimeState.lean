import CodexBridge.Base64
import CodexBridge.PosixPath
import Mathlib.Data.Int.Notation

/-! The runtime state of a submission as it is kept in a state file. Paths, bytes and tuples are
written as marked dictionaries, what has no form of its own as a text. A state that is built from
values with a form of their own is read back as it was. -/

namespace CodexBridge.Execution.RuntimeState

open PosixPath (Path)

/-! ### Values -/

/-- A value of Python. A float is known by how it is printed, and so is an object of another
type. -/
inductive PyValue where
  | none
  | bool (b : Bool)
  | int (n : ℤ)
  | float (printed : String)
  | str (s : String)
  | path (p : Path)
  | bytes (data : List UInt8)
  | tuple (items : List PyValue)
  | list (items : List PyValue)
  | dict (entries : List (String × PyValue))
  | other (printed : String)

abbrev PyDict := List (String × PyValue)

namespace PyValue

/-- `bool(value)` -/
def truthy : PyValue → Bool
  | .none => false
  | .bool b => b
  | .int n => n ≠ 0
  | .float printed => printed ≠ "0.0" && printed ≠ "-0.0"
  | .str s => s ≠ ""
  | .path _ => true
  | .bytes data => !data.isEmpty
  | .tuple items => !items.isEmpty
  | .list items => !items.isEmpty
  | .dict entries => !entries.isEmpty
  | .other _ => true

/-- `value or other` -/
def or (value other : PyValue) : PyValue := if value.truthy then value else other

/-- `entries.get(key)` -/
def get (entries : PyDict) (key : String) : PyValue := (entries.lookup key).getD .none

end PyValue

def typeKey : String := "__ccb_type__"

/-- `str` and `int` of any value, and the home directories. -/
structure Python where
  str : PyValue → String
  int : PyValue → Option ℤ
  userHome : List Char → List Char
  str_str : ∀ s, str (.str s) = s
  int_int : ∀ n, int (.int n) = some n

variable (python : Python)

/-- `path.expanduser()`, which may find no home. -/
def Python.expanduser (p : Path) : Option Path := PosixPath.expanduser python.userHome p

/-! ### Encoding -/

mutual

/-- `serialize_runtime_state`, if it does not raise. -/
def serialize : PyValue → Option PyValue
  | .none => some .none
  | .bool b => some (.bool b)
  | .int n => some (.int n)
  | .float printed => some (.float printed)
  | .str s => some (.str s)
  | .path p => (python.expanduser p).map fun p =>
    .dict [(typeKey, .str "path"), ("value", .str (String.ofList p.str))]
  | .bytes data => some (.dict [(typeKey, .str "bytes"),
    ("value", .str (String.ofList (Base64.encode data)))])
  | .tuple items => (serializeItems items).map fun items =>
    .dict [(typeKey, .str "tuple"), ("items", .list items)]
  | .list items => (serializeItems items).map .list
  | .dict entries => (serializeEntries entries).map .dict
  | .other printed => some (.str printed)

def serializeItems : List PyValue → Option (List PyValue)
  | [] => some []
  | item :: items => (serialize item).bind fun item =>
    (serializeItems items).map fun items => item :: items

def serializeEntries : PyDict → Option PyDict
  | [] => some []
  | (key, value) :: entries => (serialize value).bind fun value =>
    (serializeEntries entries).map fun entries => (key, value) :: entries

end

/-! ### Decoding -/

def decodePath (value : PyValue) : Option PyValue :=
  (python.expanduser (PosixPath.parse (python.str (value.or (.str ""))).toList)).map .path

/-- Text outside of ASCII is refused, and so is text that is not Base64. -/
def decodeBytes (value : PyValue) : Option PyValue :=
  let encoded := (python.str (value.or (.str ""))).toList
  if encoded.isEmpty then some (.bytes [])
  else if encoded.all fun c => c.toNat < 128 then (Base64.decode encoded).map .bytes
  else none

mutual

/-- `deserialize_runtime_state` -/
def deserialize : PyValue → Option PyValue
  | .list items => (deserializeItems items).map .list
  | .dict entries =>
    match PyValue.get entries typeKey with
    | .str "path" => decodePath python (PyValue.get entries "value")
    | .str "bytes" => decodeBytes python (PyValue.get entries "value")
    | .str "tuple" => deserializeTuple entries
    | _ => (deserializeEntries entries).map .dict
  | value => some value

def deserializeItems : List PyValue → Option (List PyValue)
  | [] => some []
  | item :: items => (deserialize item).bind fun item =>
    (deserializeItems items).map fun items => item :: items

def deserializeEntries : PyDict → Option PyDict
  | [] => some []
  | (key, value) :: entries => (deserialize value).bind fun value =>
    (deserializeEntries entries).map fun entries => (key, value) :: entries

/-- The tuple of the items of a marked dictionary, of none if it has no items. -/
def deserializeTuple : PyDict → Option PyValue
  | [] => some (.tuple [])
  | (key, value) :: entries =>
    if key = "items" then (deserializeEach value).map .tuple else deserializeTuple entries

/-- The values an iteration over a value gives. -/
def deserializeEach : PyValue → Option (List PyValue)
  | .tuple items => deserializeItems items
  | .list items => deserializeItems items
  | .str s => some (s.toList.map fun c => .str (String.singleton c))
  | .bytes data => some (data.map fun byte => .int byte.toNat)
  | .dict entries => some (entries.map fun entry => .str entry.1)
  | _ => none

end

/-! ### Round trips -/

/-- A value that is built from values with a form of their own: paths are expanded, and no
dictionary is marked. -/
inductive Plain : PyValue → Prop
  | none : Plain .none
  | bool (b : Bool) : Plain (.bool b)
  | int (n : ℤ) : Plain (.int n)
  | float (printed : String) : Plain (.float printed)
  | str (s : String) : Plain (.str s)
  | path (p : Path) (h : python.expanduser p = some p) : Plain (.path p)
  | bytes (data : List UInt8) : Plain (.bytes data)
  | tuple (items : List PyValue) (h : ∀ item ∈ items, Plain item) : Plain (.tuple items)
  | list (items : List PyValue) (h : ∀ item ∈ items, Plain item) : Plain (.list items)
  | dict (entries : PyDict) (hkeys : typeKey ∉ entries.map Prod.fst)
    (h : ∀ entry ∈ entries, Plain entry.2) : Plain (.dict entries)

/-- The value is written, and what is written is read back. -/
def ReadsBack (value : PyValue) : Prop :=
  ∃ written, serialize python value = some written ∧ deserialize python written = some value

variable {python}

theorem serializeItems_readsBack {items : List PyValue}
    (h : ∀ item ∈ items, ReadsBack python item) :
    ∃ written, serializeItems python items = some written ∧
      deserializeItems python written = some items := by
  induction items with
  | nil => exact ⟨[], rfl, rfl⟩
  | cons item items ih =>
    obtain ⟨hitem, hitems⟩ := List.forall_mem_cons.mp h
    obtain ⟨first, hfirst, hback⟩ := hitem
    obtain ⟨rest, hrest, hbacks⟩ := ih hitems
    refine ⟨first :: rest, ?_, ?_⟩
    · rw [serializeItems, hfirst, Option.bind_some, hrest, Option.map_some]
    · rw [deserializeItems, hback, Option.bind_some, hbacks, Option.map_some]

/-- A dictionary keeps its keys. -/
theorem serializeEntries_readsBack {entries : PyDict}
    (h : ∀ entry ∈ entries, ReadsBack python entry.2) :
    ∃ written, serializeEntries python entries = some written ∧
      deserializeEntries python written = some entries ∧
      written.map Prod.fst = entries.map Prod.fst := by
  induction entries with
  | nil => exact ⟨[], rfl, rfl, rfl⟩
  | cons entry entries ih =>
    obtain ⟨key, value⟩ := entry
    obtain ⟨hentry, hentries⟩ := List.forall_mem_cons.mp h
    obtain ⟨first, hfirst, hback⟩ := hentry
    obtain ⟨rest, hrest, hbacks, hkeys⟩ := ih hentries
    refine ⟨(key, first) :: rest, ?_, ?_, ?_⟩
    · rw [serializeEntries, hfirst, Option.bind_some, hrest, Option.map_some]
    · rw [deserializeEntries, hback, Option.bind_some, hbacks, Option.map_some]
    · rw [List.map_cons, List.map_cons, hkeys]

theorem get_of_notMem {entries : PyDict} {key : String} (h : key ∉ entries.map Prod.fst) :
    PyValue.get entries key = .none := by
  have hnone : entries.lookup key = Option.none := by
    rw [List.lookup_eq_none_iff]
    intro entry hentry
    rw [bne_iff_ne]
    intro hkey
    exact h (hkey ▸ List.mem_map_of_mem hentry)
  rw [PyValue.get, hnone, Option.getD_none]

/-- An unmarked dictionary is read entry by entry. -/
theorem deserialize_dict {entries : PyDict} (h : typeKey ∉ entries.map Prod.fst) :
    deserialize python (.dict entries) = (deserializeEntries python entries).map .dict := by
  rw [deserialize, get_of_notMem h]

theorem decodePath_str (p : Path) (h : python.expanduser p = some p) :
    decodePath python (.str (String.ofList p.str)) = some (.path p) := by
  have hne : String.ofList p.str ≠ "" := by
    intro hempty
    have hnil : p.str = [] := by
      rw [← String.toList_ofList (l := p.str), hempty]
      rfl
    exact PosixPath.str_ne_nil p hnil
  have hor : (PyValue.str (String.ofList p.str)).or (.str "") = .str (String.ofList p.str) := by
    rw [PyValue.or, PyValue.truthy, decide_eq_true hne, if_pos rfl]
  rw [decodePath, hor, python.str_str, String.toList_ofList, PosixPath.parse_str, h,
    Option.map_some]

theorem decodeBytes_encode (data : List UInt8) :
    decodeBytes python (.str (String.ofList (Base64.encode data))) = some (.bytes data) := by
  have hor : ∀ s : String, (PyValue.str s).or (.str "") = .str s := by
    intro s
    rw [PyValue.or, PyValue.truthy]
    by_cases hs : s = ""
    · rw [hs]
      rfl
    · rw [decide_eq_true hs, if_pos rfl]
  have hascii : ((Base64.encode data).all fun c => c.toNat < 128) = true :=
    List.all_eq_true.mpr fun c hc => decide_eq_true (Base64.encode_ascii data c hc)
  rw [decodeBytes, hor, python.str_str, String.toList_ofList]
  by_cases hempty : data = []
  · subst hempty
    rfl
  · have hne : (Base64.encode data).isEmpty = false :=
      List.isEmpty_eq_false_iff.mpr fun hnil => hempty (Base64.encode_eq_nil.mp hnil)
    rw [hne, hascii, if_neg Bool.false_ne_true, if_pos rfl, Base64.decode_encode, Option.map_some]

/-- A plain value is read back. -/
theorem Plain.readsBack {value : PyValue} (h : Plain python value) : ReadsBack python value := by
  induction h with
  | none => exact ⟨_, rfl, rfl⟩
  | bool b => exact ⟨_, rfl, rfl⟩
  | int n => exact ⟨_, rfl, rfl⟩
  | float printed => exact ⟨_, rfl, rfl⟩
  | str s => exact ⟨_, rfl, rfl⟩
  | path p h =>
    refine ⟨_, by rw [serialize, h, Option.map_some], ?_⟩
    exact decodePath_str p h
  | bytes data => exact ⟨_, rfl, decodeBytes_encode data⟩
  | tuple items _ ih =>
    obtain ⟨written, hwritten, hback⟩ := serializeItems_readsBack ih
    refine ⟨_, by rw [serialize, hwritten, Option.map_some], ?_⟩
    have hread : deserializeTuple python [(typeKey, .str "tuple"), ("items", .list written)] =
        some (.tuple items) := by
      have hfirst : typeKey ≠ "items" := by decide
      rw [deserializeTuple, if_neg hfirst, deserializeTuple, if_pos rfl, deserializeEach, hback,
        Option.map_some]
    exact hread
  | list items _ ih =>
    obtain ⟨written, hwritten, hback⟩ := serializeItems_readsBack ih
    refine ⟨_, by rw [serialize, hwritten, Option.map_some], ?_⟩
    rw [deserialize, hback, Option.map_some]
  | dict entries hkeys _ ih =>
    obtain ⟨written, hwritten, hback, hsame⟩ := serializeEntries_readsBack ih
    refine ⟨_, by rw [serialize, hwritten, Option.map_some], ?_⟩
    rw [deserialize_dict (hsame ▸ hkeys), hback, Option.map_some]

end CodexBridge.Execution.RuntimeState
