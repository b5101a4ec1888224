import AutoTrade.Library.Table
import AutoTrade.Runtime

/-! # Redaction of audit payloads

`sanitize_payload` of `core/auth/audit_service.py`. What stands under a sensitive
key gives way to a mark, at any depth, and lists and tuples become lists. A key
is sensitive by its text in lower case; `str` of a key and the lower case of a
text are parameters. The result is the same for payloads that differ under
sensitive keys only, and it is its own redaction.
-/

namespace AutoTrade.Audit

open AutoTrade.Library

/-- A mapping is the sequence of its items. A leaf is anything else that is not a list or a tuple. -/
inductive Payload (κ α : Type)
  | text (s : String)
  | leaf (a : α)
  | mapping (items : List (κ × Payload κ α))
  | list (items : List (Payload κ α))
  | tuple (items : List (Payload κ α))

/-- `REDACT_KEYS`. -/
def redactKeys : List String :=
  ["password", "secret", "token", "api_key", "apikey", "pin", "otp", "private_key", "auth_token",
    "hash", "salt", "secret_key"]

def Payload.isContainer {κ α : Type} : Payload κ α → Bool
  | .mapping _ | .list _ | .tuple _ => true
  | .text _ | .leaf _ => false

section Redaction

variable {κ α : Type} (str : κ → String) (lower : String → String)

def isSensitive (k : κ) : Bool := redactKeys.any fun rk => inText rk (lower (str k))

section Sanitize

variable [DecidableEq κ]

/-- The dictionary that the items make when they are assigned in turn. -/
def assigned {ν : Type} (items : List (κ × ν)) : Dict κ ν :=
  items.foldl (fun d e => d.set e.1 e.2) Table.empty

mutual

def sanitizePayload : Payload κ α → Payload κ α
  | .mapping items => .mapping (assigned (sanitizeItems items)).rows
  | .list items => .list (sanitizeAll items)
  | .tuple items => .list (sanitizeAll items)
  | .text s => .text s
  | .leaf a => .leaf a

def sanitizeItems : List (κ × Payload κ α) → List (κ × Payload κ α)
  | [] => []
  | (k, v) :: rest =>
      (k, if isSensitive str lower k then .text "[REDACTED]"
        else if v.isContainer then sanitizePayload v
        else v) :: sanitizeItems rest

def sanitizeAll : List (Payload κ α) → List (Payload κ α)
  | [] => []
  | v :: rest => sanitizePayload v :: sanitizeAll rest

end

end Sanitize

/-! ## Two payloads -/

mutual

/-- The payloads differ only in values under sensitive keys. -/
def SameButSecrets : Payload κ α → Payload κ α → Prop
  | .text s, .text s' => s = s'
  | .leaf a, .leaf a' => a = a'
  | .mapping items, .mapping items' => ItemsSame items items'
  | .list items, .list items' => AllSame items items'
  | .tuple items, .tuple items' => AllSame items items'
  | _, _ => False

def ItemsSame : List (κ × Payload κ α) → List (κ × Payload κ α) → Prop
  | [], [] => True
  | (k, v) :: rest, (k', v') :: rest' =>
      k = k' ∧ (isSensitive str lower k = true ∨ SameButSecrets v v') ∧ ItemsSame rest rest'
  | _, _ => False

def AllSame : List (Payload κ α) → List (Payload κ α) → Prop
  | [], [] => True
  | v :: rest, v' :: rest' => SameButSecrets v v' ∧ AllSame rest rest'
  | _, _ => False

end

/-! ## Payloads without secrets -/

mutual

/-- Everything under a sensitive key is the mark, and there are no tuples. -/
def Sanitized : Payload κ α → Prop
  | .mapping items => (items.map Prod.fst).Nodup ∧ ItemsSanitized items
  | .list items => AllSanitized items
  | .tuple _ => False
  | .text _ | .leaf _ => True

def ItemsSanitized : List (κ × Payload κ α) → Prop
  | [] => True
  | (k, v) :: rest =>
      (if isSensitive str lower k = true then v = .text "[REDACTED]" else Sanitized v) ∧
        ItemsSanitized rest

def AllSanitized : List (Payload κ α) → Prop
  | [] => True
  | v :: rest => Sanitized v ∧ AllSanitized rest

end

section Laws

variable {str : κ → String} {lower : String → String}

/-! ### What stands under a sensitive key does not count -/

variable [DecidableEq κ]

/-- A value that is no container is its own redaction, so the test for containers does not count. -/
theorem sanitizeItems_cons (k : κ) (v : Payload κ α) (rest : List (κ × Payload κ α)) :
    sanitizeItems str lower ((k, v) :: rest) =
      (k, if isSensitive str lower k = true then .text "[REDACTED]"
        else sanitizePayload str lower v) :: sanitizeItems str lower rest := by
  rw [sanitizeItems]
  cases v with
  | text s => simp only [Payload.isContainer, sanitizePayload, Bool.false_eq_true, if_false]
  | leaf a => simp only [Payload.isContainer, sanitizePayload, Bool.false_eq_true, if_false]
  | mapping items => rfl
  | list items => rfl
  | tuple items => rfl

mutual

theorem sanitizePayload_eq : ∀ p q : Payload κ α, SameButSecrets str lower p q →
    sanitizePayload str lower p = sanitizePayload str lower q
  | .text s, .text s', h => congrArg Payload.text h
  | .leaf a, .leaf a', h => congrArg Payload.leaf h
  | .mapping items, .mapping items', h => by
      rw [sanitizePayload, sanitizePayload, sanitizeItems_eq items items' h]
  | .list items, .list items', h => by
      rw [sanitizePayload, sanitizePayload, sanitizeAll_eq items items' h]
  | .tuple items, .tuple items', h => by
      rw [sanitizePayload, sanitizePayload, sanitizeAll_eq items items' h]

theorem sanitizeItems_eq : ∀ items items' : List (κ × Payload κ α),
    ItemsSame str lower items items' →
      sanitizeItems str lower items = sanitizeItems str lower items'
  | [], [], _ => rfl
  | (k, v) :: rest, (k', v') :: rest', h => by
      obtain ⟨rfl, hvalue, hrest⟩ := h
      rw [sanitizeItems_cons, sanitizeItems_cons, sanitizeItems_eq rest rest' hrest]
      rcases hvalue with hsensitive | hsame
      · rw [if_pos hsensitive, if_pos hsensitive]
      · rw [sanitizePayload_eq v v' hsame]

theorem sanitizeAll_eq : ∀ items items' : List (Payload κ α), AllSame str lower items items' →
    sanitizeAll str lower items = sanitizeAll str lower items'
  | [], [], _ => rfl
  | v :: rest, v' :: rest', h => by
      rw [sanitizeAll, sanitizeAll, sanitizePayload_eq v v' h.1, sanitizeAll_eq rest rest' h.2]

end

/-! ### A redaction is its own redaction -/

omit [DecidableEq κ] in
theorem itemsSanitized_iff (items : List (κ × Payload κ α)) :
    ItemsSanitized str lower items ↔ ∀ e ∈ items,
      if isSensitive str lower e.1 = true then e.2 = .text "[REDACTED]"
      else Sanitized str lower e.2 := by
  induction items with
  | nil => exact iff_of_true trivial fun e he => absurd he List.not_mem_nil
  | cons e rest ih => rw [ItemsSanitized, ih, List.forall_mem_cons]

theorem mem_rows_foldl_set {ν : Type} {items : List (κ × ν)} {d : Dict κ ν} {e : κ × ν}
    (h : e ∈ (items.foldl (fun d e => d.set e.1 e.2) d).rows) : e ∈ d.rows ∨ e ∈ items := by
  induction items generalizing d with
  | nil => exact .inl h
  | cons x rest ih =>
      rcases ih h with hset | hrest
      · rcases Dict.mem_rows_set hset with hnew | hold
        · exact .inr (hnew ▸ List.mem_cons_self)
        · exact .inl hold
      · exact .inr (List.mem_cons_of_mem x hrest)

theorem mem_of_mem_assigned {ν : Type} {items : List (κ × ν)} {e : κ × ν}
    (h : e ∈ (assigned items).rows) : e ∈ items :=
  (mem_rows_foldl_set h).resolve_left List.not_mem_nil

theorem rows_assigned {ν : Type} {items : List (κ × ν)} (h : (items.map Prod.fst).Nodup) :
    (assigned items).rows = items :=
  Dict.rows_foldl_set items Table.empty h

mutual

theorem sanitized_sanitizePayload : ∀ p : Payload κ α,
    Sanitized str lower (sanitizePayload str lower p)
  | .text _ => trivial
  | .leaf _ => trivial
  | .mapping items => by
      rw [sanitizePayload, Sanitized, itemsSanitized_iff]
      refine ⟨(assigned _).nodup, fun e he => ?_⟩
      exact (itemsSanitized_iff _).mp (sanitized_sanitizeItems items) e (mem_of_mem_assigned he)
  | .list items => sanitized_sanitizeAll items
  | .tuple items => sanitized_sanitizeAll items

theorem sanitized_sanitizeItems : ∀ items : List (κ × Payload κ α),
    ItemsSanitized str lower (sanitizeItems str lower items)
  | [] => trivial
  | (k, v) :: rest => by
      rw [sanitizeItems_cons, ItemsSanitized]
      refine ⟨?_, sanitized_sanitizeItems rest⟩
      split
      · rfl
      · exact sanitized_sanitizePayload v

theorem sanitized_sanitizeAll : ∀ items : List (Payload κ α),
    AllSanitized str lower (sanitizeAll str lower items)
  | [] => trivial
  | v :: rest => ⟨sanitized_sanitizePayload v, sanitized_sanitizeAll rest⟩

end

mutual

theorem sanitizePayload_of_sanitized : ∀ p : Payload κ α, Sanitized str lower p →
    sanitizePayload str lower p = p
  | .text _, _ => rfl
  | .leaf _, _ => rfl
  | .mapping items, h => by
      rw [sanitizePayload, sanitizeItems_of_sanitized items h.2, rows_assigned h.1]
  | .list items, h => by rw [sanitizePayload, sanitizeAll_of_sanitized items h]

theorem sanitizeItems_of_sanitized : ∀ items : List (κ × Payload κ α),
    ItemsSanitized str lower items → sanitizeItems str lower items = items
  | [], _ => rfl
  | (k, v) :: rest, h => by
      obtain ⟨hvalue, hrest⟩ := h
      rw [sanitizeItems_cons, sanitizeItems_of_sanitized rest hrest]
      split at hvalue
      · rename_i hsensitive
        rw [hvalue, if_pos hsensitive]
      · rename_i hplain
        rw [if_neg hplain, sanitizePayload_of_sanitized v hvalue]

theorem sanitizeAll_of_sanitized : ∀ items : List (Payload κ α), AllSanitized str lower items →
    sanitizeAll str lower items = items
  | [], _ => rfl
  | v :: rest, h => by
      rw [sanitizeAll, sanitizePayload_of_sanitized v h.1, sanitizeAll_of_sanitized rest h.2]

end

end Laws

/-- What stands under sensitive keys has no influence on the redaction, and a redaction is its own. -/
theorem secrets_do_not_influence [DecidableEq κ] (str : κ → String) (lower : String → String) :
    (∀ p q : Payload κ α, SameButSecrets str lower p q →
      sanitizePayload str lower p = sanitizePayload str lower q) ∧
    ∀ p : Payload κ α, sanitizePayload str lower (sanitizePayload str lower p) =
      sanitizePayload str lower p :=
  ⟨sanitizePayload_eq, fun p => sanitizePayload_of_sanitized _ (sanitized_sanitizePayload p)⟩

/-- Two passwords, in a mapping within a tuple. -/
def loginAttempt (password : String) : Payload String Int :=
  .mapping [("user", .text "trader"),
    ("steps", .tuple [.leaf 1, .mapping [("User_Password", .text password), ("ok", .leaf 0)]])]

theorem secrets_do_not_influence_login :
    sanitizePayload id String.toLower (loginAttempt "first") =
      sanitizePayload id String.toLower (loginAttempt "second") := by
  refine (secrets_do_not_influence id String.toLower).1 _ _ ?_
  have hsensitive : isSensitive id String.toLower "User_Password" = true := by decide +kernel
  exact ⟨rfl, .inr rfl, rfl, .inr ⟨rfl, ⟨rfl, .inl hsensitive, rfl, .inr rfl, trivial⟩, trivial⟩,
    trivial⟩

end Redaction

end AutoTrade.Audit
