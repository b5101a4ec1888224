import Mathlib.Data.List.Sort
import Mathlib.Data.Rat.Defs
import Mathlib.Data.String.Basic
import AutoTrade.Library.Table

/-! # JSON of Python values

`json.dumps` with `sort_keys` and fixed separators, and `json.loads`. A text is
kept as the document it spells, since the separators leave only one spelling: an
object is the list of its members in the order of the text, with text keys. A
dictionary's keys are ordered before they are turned into texts, so numbers are
ordered as numbers; a document that is loaded and dumped again has its keys
ordered as texts. Rational numbers stand for finite floats; the text of a float
that is a key is a parameter.
-/

namespace AutoTrade.Library

inductive PyFloat
  | nan
  | infinite (negative : Bool)
  | finite (negative : Bool) (magnitude : ℚ)
deriving DecidableEq, Repr

/-- The value as it is compared: on the left the infinities, on the right a finite value. -/
def PyFloat.value? : PyFloat → Option (Int × ℚ)
  | .nan => none
  | .infinite negative => some (if negative then -1 else 1, 0)
  | .finite negative magnitude => some (0, if negative then -magnitude else magnitude)

/-- The keys that `json.dumps` accepts. -/
inductive PyKey
  | text (s : String)
  | int (i : Int)
  | float (x : PyFloat)
  | bool (b : Bool)
  | none
deriving DecidableEq, Repr

/-- The values that `json.dumps` accepts; a tuple is a list. -/
inductive PyValue
  | none
  | bool (b : Bool)
  | int (i : Int)
  | float (x : PyFloat)
  | text (s : String)
  | list (items : List PyValue)
  | dict (entries : List (PyKey × PyValue))

inductive Json
  | null
  | bool (b : Bool)
  | int (i : Int)
  | float (x : PyFloat)
  | text (s : String)
  | array (items : List Json)
  | object (members : List (String × Json))

namespace PyKey

def value? : PyKey → Option (Int × ℚ)
  | int i => some (0, i)
  | bool b => some (0, if b then 1 else 0)
  | float x => x.value?
  | text _ => Option.none
  | none => Option.none

/-- `k < k'`, where that raises no error. -/
def lt : PyKey → PyKey → Bool
  | text s, text s' => decide (s < s')
  | k, k' =>
      match k.value?, k'.value? with
      | some v, some v' => decide (v.1 < v'.1 ∨ v.1 = v'.1 ∧ v.2 < v'.2)
      | _, _ => false

def isText : PyKey → Bool
  | text _ => true
  | _ => false

def isNumber : PyKey → Bool
  | int _ | float _ | bool _ => true
  | _ => false

/-- Sorting compares texts with texts and numbers with numbers, and raises an error otherwise. -/
def sortable (keys : List PyKey) : Bool :=
  decide (keys.length ≤ 1) || keys.all isText || keys.all isNumber

section Text

variable (floatText : PyFloat → String)

def jsonText : PyKey → String
  | text s => s
  | int i => toString i
  | float x => floatText x
  | bool b => if b then "true" else "false"
  | none => "null"

end Text

end PyKey

section Dumps

variable (floatText : PyFloat → String)

/-- `sorted(dct.items())`, for distinct keys. -/
def sortEntries {β : Type} (entries : List (PyKey × β)) : List (PyKey × β) :=
  entries.insertionSort fun e e' => PyKey.lt e'.1 e.1 = false

/-- The members of an object, unless sorting the keys raises `TypeError`. -/
def dumpDict {β : Type} (entries : List (PyKey × β)) : Option (List (String × β)) :=
  if PyKey.sortable (entries.map Prod.fst) then
    some ((sortEntries entries).map fun e => (e.1.jsonText floatText, e.2))
  else none

mutual

/-- `json.dumps(value, sort_keys=True, separators=(",", ":"))`. -/
def dumps : PyValue → Option Json
  | .none => some .null
  | .bool b => some (.bool b)
  | .int i => some (.int i)
  | .float x => some (.float x)
  | .text s => some (.text s)
  | .list items => (dumpsItems items).map Json.array
  | .dict entries => ((dumpsEntries entries).bind (dumpDict floatText)).map Json.object

def dumpsItems : List PyValue → Option (List Json)
  | [] => some []
  | v :: rest => (dumps v).bind fun j => (dumpsItems rest).map (j :: ·)

def dumpsEntries : List (PyKey × PyValue) → Option (List (PyKey × Json))
  | [] => some []
  | (k, v) :: rest => (dumps v).bind fun j => (dumpsEntries rest).map ((k, j) :: ·)

end

/-- The dictionary that the members make when they are assigned in turn. -/
def dictOf {β : Type} (members : List (String × β)) : Dict String β :=
  members.foldl (fun d m => d.set m.1 m.2) Table.empty

mutual

/-- `json.loads`. -/
def loads : Json → PyValue
  | .null => .none
  | .bool b => .bool b
  | .int i => .int i
  | .float x => .float x
  | .text s => .text s
  | .array items => .list (loadsItems items)
  | .object members =>
      .dict ((dictOf (loadsMembers members)).rows.map fun m => (PyKey.text m.1, m.2))

def loadsItems : List Json → List PyValue
  | [] => []
  | j :: rest => loads j :: loadsItems rest

def loadsMembers : List (String × Json) → List (String × PyValue)
  | [] => []
  | (k, j) :: rest => (k, loads j) :: loadsMembers rest

end

end Dumps

/-! ## Documents whose keys are in order -/

mutual

/-- Every object of the document has its keys in strictly ascending order. -/
def Json.Canonical : Json → Prop
  | .array items => ItemsCanonical items
  | .object members => (members.map Prod.fst).Pairwise (· < ·) ∧ MembersCanonical members
  | .null | .bool _ | .int _ | .float _ | .text _ => True

def ItemsCanonical : List Json → Prop
  | [] => True
  | j :: rest => j.Canonical ∧ ItemsCanonical rest

def MembersCanonical : List (String × Json) → Prop
  | [] => True
  | (_, j) :: rest => j.Canonical ∧ MembersCanonical rest

end

section Order

variable (floatText : PyFloat → String)

/-- The texts of the keys, in the order of the keys. -/
def keyTexts (keys : List PyKey) : List String :=
  (keys.insertionSort fun k k' => PyKey.lt k' k = false).map (PyKey.jsonText floatText)

mutual

/-- In every dictionary of the value the order of the keys is that of their texts. -/
def PyValue.KeepsKeyOrder : PyValue → Prop
  | .list items => ItemsKeepKeyOrder items
  | .dict entries => (keyTexts floatText (entries.map Prod.fst)).Pairwise (· < ·) ∧
      EntriesKeepKeyOrder entries
  | .none | .bool _ | .int _ | .float _ | .text _ => True

def ItemsKeepKeyOrder : List PyValue → Prop
  | [] => True
  | v :: rest => v.KeepsKeyOrder ∧ ItemsKeepKeyOrder rest

def EntriesKeepKeyOrder : List (PyKey × PyValue) → Prop
  | [] => True
  | (_, v) :: rest => v.KeepsKeyOrder ∧ EntriesKeepKeyOrder rest

end

theorem membersCanonical_iff (members : List (String × Json)) :
    MembersCanonical members ↔ ∀ m ∈ members, m.2.Canonical := by
  induction members with
  | nil => simp [MembersCanonical]
  | cons m rest ih =>
      obtain ⟨k, j⟩ := m
      simp [MembersCanonical, ih]

theorem keys_dumpsEntries {entries : List (PyKey × PyValue)} {encoded : List (PyKey × Json)}
    (h : dumpsEntries floatText entries = some encoded) :
    encoded.map Prod.fst = entries.map Prod.fst := by
  induction entries generalizing encoded with
  | nil =>
      cases h
      rfl
  | cons e rest ih =>
      obtain ⟨k, v⟩ := e
      obtain ⟨j, -, hrest⟩ := Option.bind_eq_some_iff.mp h
      obtain ⟨tail, htail, rfl⟩ := Option.map_eq_some_iff.mp hrest
      simp [ih htail]

theorem exists_dumps_of_mem {entries : List (PyKey × PyValue)} {encoded : List (PyKey × Json)}
    (h : dumpsEntries floatText entries = some encoded) {e : PyKey × PyValue} (he : e ∈ entries) :
    ∃ j, dumps floatText e.2 = some j := by
  induction entries generalizing encoded with
  | nil => exact absurd he List.not_mem_nil
  | cons first rest ih =>
      obtain ⟨k, v⟩ := first
      obtain ⟨j, hj, hrest⟩ := Option.bind_eq_some_iff.mp h
      obtain ⟨tail, htail, -⟩ := Option.map_eq_some_iff.mp hrest
      cases he with
      | head => exact ⟨j, hj⟩
      | tail _ he => exact ih htail he

theorem dumpDict_eq_some_iff {β : Type} (entries : List (PyKey × β)) (members : List (String × β)) :
    dumpDict floatText entries = some members ↔ PyKey.sortable (entries.map Prod.fst) = true ∧
      (sortEntries entries).map (fun e => (e.1.jsonText floatText, e.2)) = members := by
  unfold dumpDict
  split <;> simp_all

theorem keys_dumpDict {β : Type} {entries : List (PyKey × β)} {members : List (String × β)}
    (h : dumpDict floatText entries = some members) :
    members.map Prod.fst = keyTexts floatText (entries.map Prod.fst) := by
  obtain ⟨-, rfl⟩ := (dumpDict_eq_some_iff floatText entries members).mp h
  unfold keyTexts sortEntries
  rw [← List.map_insertionSort (fun e e' : PyKey × β => PyKey.lt e'.1 e.1 = false)
    (fun k k' => PyKey.lt k' k = false) Prod.fst entries (fun _ _ _ _ => Iff.rfl)]
  simp [Function.comp_def]

theorem forall_mem_dumpDict {β : Type} {entries : List (PyKey × β)} {members : List (String × β)}
    (h : dumpDict floatText entries = some members) (P : β → Prop) :
    (∀ m ∈ members, P m.2) ↔ ∀ e ∈ entries, P e.2 := by
  obtain ⟨-, rfl⟩ := (dumpDict_eq_some_iff floatText entries members).mp h
  have hperm : (sortEntries entries).Perm entries := List.perm_insertionSort _ entries
  simp only [List.forall_mem_map, hperm.mem_iff]

mutual

/-- A value is dumped to a document in order exactly when its dictionaries keep the order. -/
theorem canonical_dumps_iff : ∀ {v : PyValue} {j : Json}, dumps floatText v = some j →
    (j.Canonical ↔ v.KeepsKeyOrder floatText)
  | .none, _, h => by cases h; exact Iff.rfl
  | .bool _, _, h => by cases h; exact Iff.rfl
  | .int _, _, h => by cases h; exact Iff.rfl
  | .float _, _, h => by cases h; exact Iff.rfl
  | .text _, _, h => by cases h; exact Iff.rfl
  | .list items, j, h => by
      obtain ⟨encoded, hitems, rfl⟩ := Option.map_eq_some_iff.mp h
      exact itemsCanonical_dumpsItems_iff hitems
  | .dict entries, j, h => by
      obtain ⟨members, hdump, rfl⟩ := Option.map_eq_some_iff.mp h
      obtain ⟨encoded, hentries, hdict⟩ := Option.bind_eq_some_iff.mp hdump
      unfold Json.Canonical PyValue.KeepsKeyOrder
      rw [keys_dumpDict floatText hdict, keys_dumpsEntries floatText hentries,
        membersCanonical_iff, forall_mem_dumpDict floatText hdict Json.Canonical]
      exact and_congr_right fun _ => forall_canonical_dumpsEntries_iff hentries

theorem itemsCanonical_dumpsItems_iff : ∀ {items : List PyValue} {encoded : List Json},
    dumpsItems floatText items = some encoded →
    (ItemsCanonical encoded ↔ ItemsKeepKeyOrder floatText items)
  | [], _, h => by cases h; exact Iff.rfl
  | v :: rest, _, h => by
      obtain ⟨j, hj, hrest⟩ := Option.bind_eq_some_iff.mp h
      obtain ⟨tail, htail, rfl⟩ := Option.map_eq_some_iff.mp hrest
      exact and_congr (canonical_dumps_iff hj) (itemsCanonical_dumpsItems_iff htail)

theorem forall_canonical_dumpsEntries_iff : ∀ {entries : List (PyKey × PyValue)}
    {encoded : List (PyKey × Json)}, dumpsEntries floatText entries = some encoded →
    ((∀ e ∈ encoded, e.2.Canonical) ↔ EntriesKeepKeyOrder floatText entries)
  | [], _, h => by
      cases h
      simp [EntriesKeepKeyOrder]
  | (k, v) :: rest, _, h => by
      obtain ⟨j, hj, hrest⟩ := Option.bind_eq_some_iff.mp h
      obtain ⟨tail, htail, rfl⟩ := Option.map_eq_some_iff.mp hrest
      rw [List.forall_mem_cons]
      exact and_congr (canonical_dumps_iff hj) (forall_canonical_dumpsEntries_iff htail)

end

/-! ## Loading and dumping again -/

theorem lt_text_eq_false_iff (s s' : String) :
    PyKey.lt (.text s') (.text s) = false ↔ s ≤ s' := by
  simp only [PyKey.lt, decide_eq_false_iff_not, not_lt]

theorem dumpDict_text {β : Type} (members : List (String × β)) :
    dumpDict floatText (members.map fun m => (PyKey.text m.1, m.2)) =
      some (members.insertionSort fun m m' => m.1 ≤ m'.1) := by
  rw [dumpDict_eq_some_iff]
  constructor
  · have hall : ((members.map fun m => (PyKey.text m.1, m.2)).map Prod.fst).all PyKey.isText := by
      simp [PyKey.isText, Function.comp_def]
    rw [PyKey.sortable, hall, Bool.or_true, Bool.true_or]
  · unfold sortEntries
    rw [← List.map_insertionSort (fun m m' : String × β => m.1 ≤ m'.1) _
      (fun m : String × β => (PyKey.text m.1, m.2)) members
      (fun m _ m' _ => (lt_text_eq_false_iff m.1 m'.1).symm)]
    simp [PyKey.jsonText, Function.comp_def]

/-- Distinct keys come out of sorting strictly ascending. -/
theorem pairwise_lt_insertionSort {keys : List String} (h : keys.Nodup) :
    (keys.insertionSort (· ≤ ·)).Pairwise (· < ·) := by
  have hsorted := List.pairwise_insertionSort (· ≤ ·) keys
  have hnodup : (keys.insertionSort (· ≤ ·)).Nodup := (List.perm_insertionSort _ keys).nodup_iff.mpr h
  exact (hsorted.and hnodup).imp fun hboth => lt_of_le_of_ne hboth.1 hboth.2

/-- Keys in order are sorted already. -/
theorem insertionSort_of_pairwise_lt {β : Type} {members : List (String × β)}
    (h : (members.map Prod.fst).Pairwise (· < ·)) :
    (members.insertionSort fun m m' => m.1 ≤ m'.1) = members :=
  List.Pairwise.insertionSort_eq ((List.pairwise_map.mp h).imp le_of_lt)

/-- Lists with the same distinct keys in the same order are equal where one is a permutation of the
other. -/
theorem eq_of_perm_of_keys {β : Type} {members members' : List (String × β)}
    (hperm : members.Perm members') (hkeys : members.map Prod.fst = members'.map Prod.fst)
    (hnodup : (members.map Prod.fst).Nodup) : members = members' := by
  induction members generalizing members' with
  | nil => exact hperm.nil_eq
  | cons m rest ih =>
      cases members' with
      | nil => exact absurd hperm.symm.nil_eq (List.cons_ne_nil m rest).symm
      | cons m' rest' =>
          obtain ⟨hkey, hrest⟩ := List.cons.inj hkeys
          have hmem : m' ∈ m :: rest := hperm.symm.subset List.mem_cons_self
          obtain rfl : m = m' :=
            List.inj_on_of_nodup_map hnodup List.mem_cons_self hmem hkey
          rw [ih (List.perm_cons m |>.mp hperm) hrest (List.nodup_cons.mp hnodup).2]

/-- Sorting by distinct keys that stand in the same order loses nothing. -/
theorem insertionSort_inj_of_keys {β : Type} {members members' : List (String × β)}
    (hkeys : members.map Prod.fst = members'.map Prod.fst) (hnodup : (members.map Prod.fst).Nodup)
    (h : (members.insertionSort fun m m' => m.1 ≤ m'.1) =
      members'.insertionSort fun m m' => m.1 ≤ m'.1) : members = members' := by
  have hperm : members.Perm members' :=
    (List.perm_insertionSort _ members).symm.trans (h ▸ List.perm_insertionSort _ members')
  exact eq_of_perm_of_keys hperm hkeys hnodup

/-- Members with distinct keys make the dictionary that lists them. -/
theorem rows_dictOf {β : Type} {members : List (String × β)} (h : (members.map Prod.fst).Nodup) :
    (dictOf members).rows = members := by
  have hrows := Dict.rows_foldl_set members Table.empty (by simpa [Table.empty] using h)
  simpa [dictOf, Table.empty] using hrows

theorem keys_loadsMembers (members : List (String × Json)) :
    (loadsMembers members).map Prod.fst = members.map Prod.fst := by
  induction members with
  | nil => rfl
  | cons m rest ih => simp [loadsMembers, ih]

theorem keyTexts_text (keys : List String) :
    keyTexts floatText (keys.map PyKey.text) = keys.insertionSort (· ≤ ·) := by
  unfold keyTexts
  rw [← List.map_insertionSort (· ≤ ·) _ PyKey.text keys
    (fun s _ s' _ => (lt_text_eq_false_iff s s').symm)]
  simp [PyKey.jsonText, Function.comp_def]

/-- Entries whose keys are the texts of members in order are dumped to those members alone. -/
theorem eq_of_dumpDict_of_ordered {β : Type} {entries : List (PyKey × β)} {members : List (String × β)}
    (hdump : dumpDict floatText entries = some members)
    (hkeys : entries.map Prod.fst = (members.map Prod.fst).map PyKey.text)
    (hordered : (members.map Prod.fst).Pairwise (· < ·)) :
    entries = members.map fun m => (PyKey.text m.1, m.2) := by
  let plain := entries.map fun e => (e.1.jsonText floatText, e.2)
  have hentries : entries = plain.map fun m => (PyKey.text m.1, m.2) := by
    rw [List.map_map]
    refine ((List.map_congr_left fun e he => ?_).trans (List.map_id entries)).symm
    have hkey : e.1 ∈ (members.map Prod.fst).map PyKey.text := hkeys ▸ List.mem_map_of_mem he
    obtain ⟨k, -, hk⟩ := List.mem_map.mp hkey
    simp [← hk, PyKey.jsonText, Prod.ext_iff]
  have hplain : plain.map Prod.fst = members.map Prod.fst := by
    have h := congrArg (List.map (PyKey.jsonText floatText)) hkeys
    simpa [plain, PyKey.jsonText, Function.comp_def] using h
  rw [hentries, dumpDict_text, insertionSort_of_pairwise_lt (hplain ▸ hordered),
    Option.some.injEq] at hdump
  rw [hentries, hdump]

mutual

/-- A document is spelled the same after it is loaded and dumped exactly when its keys are in order. -/
theorem dumps_loads_iff : ∀ j : Json, dumps floatText (loads j) = some j ↔ j.Canonical
  | .null => ⟨fun _ => trivial, fun _ => rfl⟩
  | .bool _ => ⟨fun _ => trivial, fun _ => rfl⟩
  | .int _ => ⟨fun _ => trivial, fun _ => rfl⟩
  | .float _ => ⟨fun _ => trivial, fun _ => rfl⟩
  | .text _ => ⟨fun _ => trivial, fun _ => rfl⟩
  | .array items => by
      rw [Json.Canonical, ← dumpsItems_loadsItems_iff items, loads, dumps, Option.map_eq_some_iff]
      simp
  | .object members => by
      have hfields := dumpsEntries_loadsMembers_iff members
      rw [Json.Canonical, ← hfields, loads, dumps]
      constructor
      · intro h
        obtain ⟨dumped, hdump, hobject⟩ := Option.map_eq_some_iff.mp h
        obtain rfl : dumped = members := Json.object.inj hobject
        obtain ⟨encoded, hentries, hdict⟩ := Option.bind_eq_some_iff.mp hdump
        have hencoded := keys_dumpsEntries floatText hentries
        have hkeys := keys_dumpDict floatText hdict
        have hnodup : ((dictOf (loadsMembers dumped)).rows.map Prod.fst).Nodup := (dictOf _).nodup
        have htexts : ((dictOf (loadsMembers dumped)).rows.map fun m =>
            (PyKey.text m.1, m.2)).map Prod.fst =
              ((dictOf (loadsMembers dumped)).rows.map Prod.fst).map PyKey.text := by simp
        rw [hencoded, htexts, keyTexts_text] at hkeys
        have hordered : (dumped.map Prod.fst).Pairwise (· < ·) :=
          hkeys ▸ pairwise_lt_insertionSort hnodup
        have hdistinct : ((loadsMembers dumped).map Prod.fst).Nodup := by
          rw [keys_loadsMembers]
          exact hordered.imp ne_of_lt
        rw [rows_dictOf hdistinct] at hentries hencoded
        have hsame : encoded.map Prod.fst = (dumped.map Prod.fst).map PyKey.text := by
          rw [hencoded, ← keys_loadsMembers dumped]
          simp
        rw [eq_of_dumpDict_of_ordered floatText hdict hsame hordered] at hentries
        exact ⟨hordered, hentries⟩
      · rintro ⟨hordered, hentries⟩
        have hdistinct : ((loadsMembers members).map Prod.fst).Nodup := by
          rw [keys_loadsMembers]
          exact hordered.imp ne_of_lt
        rw [rows_dictOf hdistinct, hentries, Option.bind_some, dumpDict_text,
          insertionSort_of_pairwise_lt hordered, Option.map_some]

theorem dumpsItems_loadsItems_iff : ∀ items : List Json,
    dumpsItems floatText (loadsItems items) = some items ↔ ItemsCanonical items
  | [] => ⟨fun _ => trivial, fun _ => rfl⟩
  | j :: rest => by
      rw [ItemsCanonical, ← dumps_loads_iff j, ← dumpsItems_loadsItems_iff rest, loadsItems, dumpsItems,
        Option.bind_eq_some_iff]
      simp

theorem dumpsEntries_loadsMembers_iff : ∀ members : List (String × Json),
    dumpsEntries floatText ((loadsMembers members).map fun m => (PyKey.text m.1, m.2)) =
      some (members.map fun m => (PyKey.text m.1, m.2)) ↔ MembersCanonical members
  | [] => ⟨fun _ => trivial, fun _ => rfl⟩
  | (k, j) :: rest => by
      rw [MembersCanonical, ← dumps_loads_iff j, ← dumpsEntries_loadsMembers_iff rest, loadsMembers,
        List.map_cons, dumpsEntries, Option.bind_eq_some_iff]
      simp

end

end Order

end AutoTrade.Library
