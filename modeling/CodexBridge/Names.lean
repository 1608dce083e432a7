import CodexBridge.Completion.Records
import Mathlib.Data.Char
import Mathlib.Data.List.DropRight

/-! Names of agents, and the exceptions that values are refused with. A name is compared in
lower case; normalizing it twice changes nothing. -/

namespace CodexBridge

/-- What the program raises. A `KeyError` carries the key or a text. -/
inductive Raised where
  | value (message : String)
  | key (name : String)
  | dispatch (message : String)
  | unicodeDecode
  | jsonDecode
  deriving DecidableEq

/-- `str.strip`, on a text that is being read. -/
def stripped (cs : List Char) : List Char := (cs.dropWhile isSpace).rdropWhile isSpace

/-! ### Names -/

def reservedAgentNames : List String :=
  ["all", "from", "user", "system", "ask", "cancel", "clear", "pend", "ping", "watch", "kill",
    "ps", "logs", "doctor", "config", "cmd", "version", "update", "help"]

def isLetter (c : Char) : Bool := (65 ≤ c.toNat && c.toNat ≤ 90) || (97 ≤ c.toNat && c.toNat ≤ 122)

def isNameChar (c : Char) : Bool :=
  isLetter c || (48 ≤ c.toNat && c.toNat ≤ 57) || c = '_' || c = '-'

/-- `AGENT_NAME_PATTERN` -/
def agentNamePattern : List Char → Bool
  | [] => false
  | c :: cs => isLetter c && cs.all isNameChar && cs.length ≤ 31

def normalizeAgentName (name : String) : Except Raised String :=
  let value := strip name
  if value = "" then throw (.value "agent name cannot be empty")
  else if agentNamePattern value.toList = false then
    throw (.value "agent name must match ^[a-zA-Z][a-zA-Z0-9_-]{0,31}$")
  else
    let normalized := lower value
    if normalized ∈ reservedAgentNames then
      throw (.value ("agent name '" ++ normalized ++ "' is reserved"))
    else pure normalized

/-- The name of an agent, as it is compared. -/
structure TargetName where
  name : String
  normalized : normalizeAgentName name = .ok name

/-! ### Normal names -/

theorem isNameChar_not_space {c : Char} (h : isNameChar c = true) : isSpace c = false := by
  have hu : ('_').toNat = 95 := rfl
  have hd : ('-').toNat = 45 := rfl
  have hrange : 45 ≤ c.toNat ∧ c.toNat ≤ 122 := by
    simp only [isNameChar, isLetter, Bool.or_eq_true, Bool.and_eq_true, decide_eq_true_eq] at h
    rcases h with ((h | h) | rfl) | rfl <;> omega
  simp only [isSpace, Bool.or_eq_false_iff, Bool.and_eq_false_iff, beq_eq_false_iff_ne,
    decide_eq_false_iff_not]
  omega

theorem toLower_toNat (c : Char) :
    c.toLower.toNat = if 65 ≤ c.toNat ∧ c.toNat ≤ 90 then c.toNat + 32 else c.toNat := by
  have hiff : (c.val ≥ 'A'.val ∧ c.val ≤ 'Z'.val) ↔ 65 ≤ c.toNat ∧ c.toNat ≤ 90 := by
    rw [ge_iff_le, UInt32.le_iff_toNat_le, UInt32.le_iff_toNat_le]
    exact Iff.rfl
  unfold Char.toLower
  by_cases h : 65 ≤ c.toNat ∧ c.toNat ≤ 90
  · rw [dif_pos (hiff.mpr h), if_pos h]
    show (c.val + 32).toNat = _
    rw [UInt32.toNat_add]
    show (c.toNat + 32) % 2 ^ 32 = _
    omega
  · rw [dif_neg fun hc => h (hiff.mp hc), if_neg h]

theorem toLower_toLower (c : Char) : c.toLower.toLower = c.toLower := by
  refine Char.toNat_inj.mp ?_
  rw [toLower_toNat c.toLower, toLower_toNat c]
  split_ifs <;> omega

theorem isLetter_toLower (c : Char) : isLetter c.toLower = isLetter c := by
  rw [Bool.eq_iff_iff]
  simp only [isLetter, toLower_toNat, Bool.or_eq_true, Bool.and_eq_true, decide_eq_true_eq]
  split_ifs <;> omega

theorem isNameChar_toLower {c : Char} (h : isNameChar c = true) : isNameChar c.toLower = true := by
  by_cases hletter : isLetter c = true
  · simp [isNameChar, isLetter_toLower, hletter]
  · have hsame : c.toLower = c := by
      refine Char.toNat_inj.mp ?_
      simp only [isLetter, Bool.or_eq_true, Bool.and_eq_true, decide_eq_true_eq] at hletter
      rw [toLower_toNat, if_neg (by omega)]
    rw [hsame]
    exact h

theorem agentNamePattern_all {cs : List Char} (h : agentNamePattern cs = true) :
    ∀ c ∈ cs, isNameChar c = true := by
  cases cs with
  | nil => simp
  | cons c cs =>
    simp only [agentNamePattern, Bool.and_eq_true, List.all_eq_true] at h
    intro x hx
    rcases List.mem_cons.mp hx with rfl | hx
    · simp [isNameChar, h.1.1]
    · exact h.1.2 x hx

theorem agentNamePattern_lower {cs : List Char} (h : agentNamePattern cs = true) :
    agentNamePattern (cs.map Char.toLower) = true := by
  cases cs with
  | nil => exact h
  | cons c cs =>
    simp only [agentNamePattern, Bool.and_eq_true, List.all_eq_true] at h
    simp only [List.map_cons, agentNamePattern, Bool.and_eq_true, List.all_eq_true,
      isLetter_toLower, List.length_map]
    refine ⟨⟨h.1.1, ?_⟩, h.2⟩
    intro x hx
    obtain ⟨y, hy, rfl⟩ := List.mem_map.mp hx
    exact isNameChar_toLower (h.1.2 y hy)

theorem strip_strip (s : String) : strip (strip s) = strip s := by
  have htoList (s : String) : (strip s).toList = stripped s.toList := String.toList_ofList
  have hhead : (stripped s.toList).dropWhile isSpace = stripped s.toList := by
    refine List.dropWhile_eq_self_iff.mpr fun hpos => ?_
    have hstart : stripped s.toList <+: s.toList.dropWhile isSpace := List.rdropWhile_prefix ..
    rw [hstart.getElem hpos]
    exact List.dropWhile_get_zero_not _ _ (hpos.trans_le hstart.length_le)
  refine String.ext ?_
  rw [htoList, htoList, stripped, hhead]
  exact List.rdropWhile_idempotent ..

theorem isSpace_toLower (c : Char) : isSpace c.toLower = isSpace c := by
  rw [Bool.eq_iff_iff]
  simp only [isSpace, toLower_toNat, Bool.or_eq_true, Bool.and_eq_true, decide_eq_true_eq,
    beq_iff_eq]
  split_ifs <;> omega

theorem strip_lower (s : String) : strip (lower s) = lower (strip s) := by
  have hspace : isSpace ∘ Char.toLower = isSpace := funext isSpace_toLower
  have hlower (t : String) : (lower t).toList = t.toList.map Char.toLower := String.toList_map ..
  refine String.ext ?_
  rw [hlower, strip, strip, hlower, String.toList_ofList, String.toList_ofList, List.dropWhile_map,
    hspace, ← List.map_reverse, List.dropWhile_map, hspace, List.map_reverse]

theorem lower_lower (s : String) : lower (lower s) = lower s := by
  have hlower (t : String) : (lower t).toList = t.toList.map Char.toLower := String.toList_map ..
  refine String.ext ?_
  rw [hlower, hlower, List.map_map]
  exact List.map_congr_left fun c _ => toLower_toLower c

/-- In lower case and stripped, a text stays what it is. -/
theorem lower_strip_idem (s : String) : lower (strip (lower (strip s))) = lower (strip s) := by
  rw [strip_lower, strip_strip, lower_lower]

theorem strip_of_forall {s : String} (h : ∀ c ∈ s.toList, isSpace c = false) : strip s = s := by
  have hdrop (cs : List Char) (hcs : ∀ c ∈ cs, isSpace c = false) : cs.dropWhile isSpace = cs := by
    cases cs with
    | nil => rfl
    | cons c cs => rw [List.dropWhile_cons_of_neg (by simp [hcs c])]
  rw [strip, hdrop _ h, hdrop _ fun c hc => h c (List.mem_reverse.mp hc), List.reverse_reverse]
  exact String.ofList_toList

theorem normalizeAgentName_eq_ok {name n : String} :
    normalizeAgentName name = .ok n ↔ agentNamePattern (strip name).toList = true ∧
      lower (strip name) ∉ reservedAgentNames ∧ n = lower (strip name) := by
  have hempty : strip name = "" → agentNamePattern (strip name).toList = false := by
    intro h
    rw [h]
    rfl
  unfold normalizeAgentName
  by_cases h : strip name = ""
  · simp [h, agentNamePattern, throw, throwThe, MonadExceptOf.throw]
  · by_cases hp : agentNamePattern (strip name).toList = true
    · by_cases hr : lower (strip name) ∈ reservedAgentNames
      · simp [h, hp, hr, throw, throwThe, MonadExceptOf.throw]
      · simp [h, hp, hr, pure, Except.pure, eq_comm]
    · simp [h, hp, throw, throwThe, MonadExceptOf.throw]

/-- A normalized name is normal. -/
theorem normalizeAgentName_idem {name n : String} (h : normalizeAgentName name = .ok n) :
    normalizeAgentName n = .ok n := by
  obtain ⟨hpattern, hreserved, rfl⟩ := normalizeAgentName_eq_ok.mp h
  have hlist : (lower (strip name)).toList = (strip name).toList.map Char.toLower :=
    String.toList_map ..
  have hlower : agentNamePattern (lower (strip name)).toList = true := by
    rw [hlist]
    exact agentNamePattern_lower hpattern
  have hstrip : strip (lower (strip name)) = lower (strip name) :=
    strip_of_forall fun c hc => isNameChar_not_space (agentNamePattern_all hlower c hc)
  have hidem : lower (lower (strip name)) = lower (strip name) := by
    refine String.toList_inj.mp ?_
    rw [lower, String.toList_map, hlist, List.map_map]
    exact List.map_congr_left fun c _ => toLower_toLower c
  rw [normalizeAgentName_eq_ok, hstrip, hidem]
  exact ⟨hlower, hreserved, rfl⟩

end CodexBridge
