import AutoTrade.Execution.Order
import AutoTrade.Library.Marks

/-! # The text behind an idempotency key

`generate_key` hashes its fields as `name=value` joined by `&`, without
escaping, so a text field can spell fields of its own. The key of an order is
its own where its texts hold none of the marks a reader would take for the next
field, and where no optional number stands behind a text.
-/

namespace AutoTrade.Execution

open Library

/-- The string `generate_key` hashes. -/
def keyString (platform : Platform) (request : OrderRequest) (context : ExecutionContext) :
    String :=
  "&".intercalate ((keyData platform request context).map fun (k, v) => k ++ "=" ++ v)

theorem generateKey_eq (platform : Platform) (request : OrderRequest)
    (context : ExecutionContext) : generateKey platform request context =
      String.ofList ((platform.sha256Hex (keyString platform request context)).toList.take 32) :=
  rfl

/-- What a key is made of. -/
structure KeyFields where
  symbol : String
  direction : String
  strikePrice : ℚ
  lotSize : Int
  orderType : OrderType
  price : Option ℚ
  stopLoss : Option ℚ
  target : Option ℚ
  strategyId : String
  signalId : String
  signalTimestamp : Time
deriving DecidableEq

def keyFields (request : OrderRequest) (context : ExecutionContext) : KeyFields where
  symbol := request.symbol
  direction := request.direction
  strikePrice := request.strikePrice
  lotSize := request.lotSize
  orderType := request.orderType
  price := request.price
  stopLoss := request.stopLoss
  target := request.target
  strategyId := request.strategyId
  signalId := context.signalId
  signalTimestamp := context.signalTimestamp

/-- `repr` of a float and `isoformat` name one value each and print no separator. -/
structure Platform.Legible (platform : Platform) : Prop where
  floatStr_inj : ∀ p q, platform.floatStr p = platform.floatStr q → p = q
  floatStr_amp : ∀ q, '&' ∉ (platform.floatStr q).toList
  isoformat_inj : ∀ s t, platform.isoformat s = platform.isoformat t → s = t
  isoformat_amp : ∀ t, '&' ∉ (platform.isoformat t).toList

/-! ## Marks of the key string -/

variable {platform : Platform} {request request' : OrderRequest}
  {context context' : ExecutionContext}

/-- `&lot_size=…&order_type=…&price=…&signal_id=`, the price only where there is one. -/
def orderRow (platform : Platform) (lotSize : Int) (orderType : OrderType) (price : Option ℚ) :
    FieldRow Char :=
  (("lot_size".toList, (toString lotSize).toList) ::
    ("order_type".toList, orderType.value.toList) ::
    (price.map fun p => ("price".toList, (platform.floatStr p).toList)).toList,
    "signal_id".toList)

/-- `&strategy_id=`. -/
def strategyRow : FieldRow Char := ([], "strategy_id".toList)

/-- `&strike_price=…&symbol=`. -/
def strikeRow (platform : Platform) (strikePrice : ℚ) : FieldRow Char :=
  ([("strike_price".toList, (platform.floatStr strikePrice).toList)], "symbol".toList)

def orderMarks (platform : Platform) : Set (List Char) :=
  {m | ∃ lotSize orderType price, m = (orderRow platform lotSize orderType price).mark '&' '='}

def strategyMarks : Set (List Char) := {m | m = strategyRow.mark '&' '='}

def strikeMarks (platform : Platform) : Set (List Char) :=
  {m | ∃ strikePrice, m = (strikeRow platform strikePrice).mark '&' '='}

/-- The families of marks in the order of their places. -/
def keyMarks (platform : Platform) : List (Set (List Char)) :=
  [orderMarks platform, strategyMarks, strikeMarks platform]

/-- `&name=value` of an optional number. -/
def optionalText (platform : Platform) (name : String) (value : Option ℚ) : List Char :=
  value.elim [] fun v => fieldText '&' '=' (name.toList, (platform.floatStr v).toList)

def keyParts (platform : Platform) (request : OrderRequest) (context : ExecutionContext) :
    List (List Char × List Char) :=
  [((orderRow platform request.lotSize request.orderType request.price).mark '&' '=',
      context.signalId.toList ++ optionalText platform "stop_loss" request.stopLoss),
    (strategyRow.mark '&' '=', request.strategyId.toList),
    ((strikeRow platform request.strikePrice).mark '&' '=',
      request.symbol.toList ++ optionalText platform "target" request.target)]

theorem intercalate_toList (name value : String) (rest : List (String × String)) :
    ("&".intercalate (((name, value) :: rest).map fun (k, v) => k ++ "=" ++ v)).toList =
      name.toList ++ '=' :: value.toList ++
        rest.flatMap fun (k, v) => fieldText '&' '=' (k.toList, v.toList) := by
  induction rest generalizing name value with
  | nil => simp
  | cons e rest ih =>
      have hrest := ih e.1 e.2
      rw [List.map_cons] at hrest ⊢
      rw [List.map_cons, String.intercalate_cons_cons, String.toList_append, String.toList_append,
        hrest]
      simp [fieldText]

/-- The fields that are there, each behind its separator. -/
theorem present_flatMap (fields : List (String × Option String)) :
    ((fields.filterMap fun (name, value) => value.map fun v => (name, v)).flatMap
        fun (k, v) => fieldText '&' '=' (k.toList, v.toList)) =
      fields.flatMap fun (name, value) =>
        value.elim [] fun v => fieldText '&' '=' (name.toList, v.toList) := by
  induction fields with
  | nil => rfl
  | cons e rest ih =>
      obtain ⟨name, value⟩ := e
      rw [List.flatMap_cons, ← ih]
      cases value with
      | none => rfl
      | some v => rfl

theorem elim_map_floatStr (name : String) (value : Option ℚ) :
    ((value.map platform.floatStr).elim [] fun v => fieldText '&' '=' (name.toList, v.toList)) =
      optionalText platform name value := by
  cases value <;> rfl

theorem flatMap_price (price : Option ℚ) :
    ((price.map fun p => ("price".toList, (platform.floatStr p).toList)).toList.flatMap
        (fieldText '&' '=')) = optionalText platform "price" price := by
  cases price with
  | none => rfl
  | some p => exact List.append_nil _

theorem keyString_toList (platform : Platform) (request : OrderRequest)
    (context : ExecutionContext) : (keyString platform request context).toList =
      "direction=".toList ++ assemble request.direction.toList (keyParts platform request context) ++
        fieldText '&' '=' ("timestamp".toList,
          (platform.isoformat context.signalTimestamp).toList) := by
  have hfirst (fields : List (String × Option String)) :
      (("direction", some request.direction) :: fields).filterMap
          (fun (name, value) => value.map fun v => (name, v)) =
        ("direction", request.direction) ::
          fields.filterMap fun (name, value) => value.map fun v => (name, v) := rfl
  unfold keyString keyData
  rw [hfirst, intercalate_toList, present_flatMap]
  simp only [List.flatMap_cons, List.flatMap_nil, elim_map_floatStr, Option.elim_some, keyParts,
    assemble, orderRow, strategyRow, strikeRow, FieldRow.mark, flatMap_price]
  simp [fieldText]

/-! ## Marks do not overlap -/

/-- All the rows a mark of the key string is made of. -/
def keyRows (platform : Platform) : Set (FieldRow Char) :=
  {row | (∃ lotSize orderType price, row = orderRow platform lotSize orderType price) ∨
    row = strategyRow ∨ ∃ strikePrice, row = strikeRow platform strikePrice}

/-- The names in these rows. -/
def rowNames : List (List (List Char)) :=
  [["lot_size".toList, "order_type".toList, "signal_id".toList],
    ["lot_size".toList, "order_type".toList, "price".toList, "signal_id".toList],
    ["strategy_id".toList], ["strike_price".toList, "symbol".toList]]

theorem names_mem_rowNames {row : FieldRow Char} (hrow : row ∈ keyRows platform) :
    row.names ∈ rowNames := by
  obtain ⟨lotSize, orderType, price, rfl⟩ | rfl | ⟨strikePrice, rfl⟩ := hrow
  · cases price with
    | none => exact List.mem_cons_self
    | some p => exact List.mem_cons_of_mem _ List.mem_cons_self
  · exact List.mem_cons_of_mem _ (List.mem_cons_of_mem _ List.mem_cons_self)
  · exact List.mem_cons_of_mem _ (List.mem_cons_of_mem _
      (List.mem_cons_of_mem _ List.mem_cons_self))

theorem rowNames_plain : ∀ names ∈ rowNames, ∀ name ∈ names, '&' ∉ name ∧ '=' ∉ name := by
  decide +kernel

theorem rowNames_head : ∀ names ∈ rowNames, ∀ names' ∈ rowNames, ∀ name ∈ names.head?,
    name ∉ names'.tail := by
  decide +kernel

theorem rowNames_last : ∀ names ∈ rowNames, ∀ names' ∈ rowNames, ∀ name ∈ names.getLast?,
    name ∉ names'.dropLast := by
  decide +kernel

theorem OrderType.amp_notMem_value (orderType : OrderType) : '&' ∉ orderType.value.toList := by
  cases orderType <;> decide +kernel

theorem OrderType.value_inj {orderType orderType' : OrderType}
    (h : orderType.value = orderType'.value) : orderType = orderType' := by
  revert h
  cases orderType <;> cases orderType' <;> decide +kernel

/-- The numbers and the order type print no `&`. -/
theorem keyRows_value_amp (hlegible : platform.Legible) {row : FieldRow Char}
    (hrow : row ∈ keyRows platform) : ∀ field ∈ row.1, '&' ∉ field.2 := by
  have hlot : ∀ n : Int, '&' ∉ (toString n).toList := notMem_toString (by decide) (by decide)
  obtain ⟨lotSize, orderType, price, rfl⟩ | rfl | ⟨strikePrice, rfl⟩ := hrow
  · cases price with
    | none =>
        simp only [orderRow, Option.map_none, Option.toList_none, List.forall_mem_cons]
        exact ⟨hlot lotSize, orderType.amp_notMem_value, by simp⟩
    | some p =>
        simp only [orderRow, Option.map_some, Option.toList_some, List.forall_mem_cons]
        exact ⟨hlot lotSize, orderType.amp_notMem_value, hlegible.floatStr_amp p, by simp⟩
  · simp [strategyRow]
  · simpa [strikeRow] using hlegible.floatStr_amp strikePrice

theorem keyRows_plain (hlegible : platform.Legible) {row : FieldRow Char}
    (hrow : row ∈ keyRows platform) : row.Plain '&' '=' where
  name_amp name hname := (rowNames_plain _ (names_mem_rowNames hrow) name hname).1
  name_eq name hname := (rowNames_plain _ (names_mem_rowNames hrow) name hname).2
  value_amp := keyRows_value_amp hlegible hrow

theorem orderRow_mem (lotSize : Int) (orderType : OrderType) (price : Option ℚ) :
    orderRow platform lotSize orderType price ∈ keyRows platform :=
  Or.inl ⟨lotSize, orderType, price, rfl⟩

theorem strategyRow_mem : strategyRow ∈ keyRows platform := Or.inr (Or.inl rfl)

theorem strikeRow_mem (strikePrice : ℚ) : strikeRow platform strikePrice ∈ keyRows platform :=
  Or.inr (Or.inr ⟨strikePrice, rfl⟩)

theorem keyMarks_apart (hlegible : platform.Legible) : Apart (marks (keyMarks platform)) := by
  have hrows := apart_of_rows (by decide : '&' ≠ '=')
    (fun (row : FieldRow Char) (hrow : row ∈ keyRows platform) => keyRows_plain hlegible hrow)
    (fun row hrow row' hrow' => rowNames_head _ (names_mem_rowNames hrow) _
      (names_mem_rowNames hrow'))
    (fun row hrow row' hrow' => rowNames_last _ (names_mem_rowNames hrow) _
      (names_mem_rowNames hrow'))
  refine hrows.mono ?_
  rintro m ⟨M, hM, hm⟩
  simp only [keyMarks, List.mem_cons, List.not_mem_nil, or_false] at hM
  rcases hM with rfl | rfl | rfl
  · obtain ⟨lotSize, orderType, price, rfl⟩ := hm
    exact ⟨_, orderRow_mem lotSize orderType price, rfl⟩
  · obtain rfl := hm
    exact ⟨_, strategyRow_mem, rfl⟩
  · obtain ⟨strikePrice, rfl⟩ := hm
    exact ⟨_, strikeRow_mem strikePrice, rfl⟩

/-- Two rows that print the same mark are the same row. -/
theorem keyRow_mark_inj (hlegible : platform.Legible) {row row' : FieldRow Char}
    (hrow : row ∈ keyRows platform) (hrow' : row' ∈ keyRows platform)
    (h : row.mark '&' '=' = row'.mark '&' '=') : row = row' := by
  have hopen : ∀ r ∈ keyRows platform, ∀ r' ∈ keyRows platform, r.2 ∉ r'.1.map Prod.fst :=
    fun r hr r' hr' => FieldRow.open_notMem_closed
      (rowNames_last _ (names_mem_rowNames hr) _ (names_mem_rowNames hr'))
  obtain ⟨hclosed, hlast, -⟩ := FieldRow.mark_inj (keyRows_plain hlegible hrow)
    (keyRows_plain hlegible hrow') (hopen _ hrow _ hrow') (hopen _ hrow' _ hrow)
    (congrArg (· ++ []) h)
  exact Prod.ext hclosed hlast

theorem keyMarks_separate (hlegible : platform.Legible) : Separate (keyMarks platform) := by
  have hne : ∀ {row row' : FieldRow Char}, row ∈ keyRows platform → row' ∈ keyRows platform →
      row.2 ≠ row'.2 → row.mark '&' '=' ≠ row'.mark '&' '=' :=
    fun hrow hrow' hlast hmark =>
      hlast (congrArg Prod.snd (keyRow_mark_inj hlegible hrow hrow' hmark))
  refine List.pairwise_cons.mpr ⟨?_, List.pairwise_cons.mpr ⟨?_, List.pairwise_singleton _ _⟩⟩
  · rintro M hM m ⟨lotSize, orderType, price, rfl⟩ hm
    simp only [List.mem_cons, List.not_mem_nil, or_false] at hM
    rcases hM with rfl | rfl
    · exact hne (orderRow_mem _ _ _) strategyRow_mem (by simp [orderRow, strategyRow]) hm
    · obtain ⟨strikePrice, hm⟩ := hm
      exact hne (orderRow_mem _ _ _) (strikeRow_mem _) (by simp [orderRow, strikeRow]) hm
  · rintro M hM m rfl hm
    rw [List.mem_singleton] at hM
    subst hM
    obtain ⟨strikePrice, hm⟩ := hm
    exact hne strategyRow_mem (strikeRow_mem _) (by simp [strategyRow, strikeRow]) hm

/-! ## Reading a key string back -/

theorem keyParts_fits (platform : Platform) (request : OrderRequest) (context : ExecutionContext) :
    Fits (keyMarks platform) (keyParts platform request context) :=
  .cons ⟨request.lotSize, request.orderType, request.price, rfl⟩
    (.cons rfl (.cons ⟨request.strikePrice, rfl⟩ .nil))

/-- The timestamp stands behind the last `&`. -/
theorem keyString_eq_iff (hlegible : platform.Legible) :
    keyString platform request context = keyString platform request' context' ↔
      assemble request.direction.toList (keyParts platform request context) =
          assemble request'.direction.toList (keyParts platform request' context') ∧
        context.signalTimestamp = context'.signalTimestamp := by
  rw [← String.toList_inj, keyString_toList, keyString_toList]
  constructor
  · intro h
    have hamp : ∀ t, '&' ∉ "timestamp".toList ++ '=' :: (platform.isoformat t).toList := by
      intro t
      rw [List.mem_append, List.mem_cons, not_or, not_or]
      exact ⟨by decide +kernel, by decide, hlegible.isoformat_amp t⟩
    obtain ⟨hparts, htime⟩ := append_cons_inj_of_last (hamp _) (hamp _) h
    have hiso := (List.cons.inj (List.append_cancel_left htime)).2
    exact ⟨List.append_cancel_left hparts, hlegible.isoformat_inj _ _ (String.toList_inj.mp hiso)⟩
  · rintro ⟨hparts, htime⟩
    rw [hparts, htime]

/-- The signal id together with the stop loss printed behind it. -/
def signalText (platform : Platform) (request : OrderRequest) (context : ExecutionContext) :
    List Char :=
  context.signalId.toList ++ optionalText platform "stop_loss" request.stopLoss

/-- The symbol together with the target printed behind it. -/
def symbolText (platform : Platform) (request : OrderRequest) : List Char :=
  request.symbol.toList ++ optionalText platform "target" request.target

/-- The four texts hold no mark of the places beside them. -/
structure MarksClear (platform : Platform) (request : OrderRequest) (context : ExecutionContext) :
    Prop where
  direction_order : Free (orderMarks platform) request.direction.toList
  signal_order : Free (orderMarks platform) (signalText platform request context)
  signal_strategy : Free strategyMarks (signalText platform request context)
  strategy_strategy : Free strategyMarks request.strategyId.toList
  strategy_strike : Free (strikeMarks platform) request.strategyId.toList
  symbol_strike : Free (strikeMarks platform) (symbolText platform request)

/-- Only the optional numbers behind the signal id and the symbol stay unread. -/
structure SameReading (platform : Platform) (request request' : OrderRequest)
    (context context' : ExecutionContext) : Prop where
  direction : request.direction = request'.direction
  lotSize : request.lotSize = request'.lotSize
  orderType : request.orderType = request'.orderType
  price : request.price = request'.price
  signal : signalText platform request context = signalText platform request' context'
  strategyId : request.strategyId = request'.strategyId
  strikePrice : request.strikePrice = request'.strikePrice
  symbol : symbolText platform request = symbolText platform request'
  timestamp : context.signalTimestamp = context'.signalTimestamp

theorem orderRow_inj (hlegible : platform.Legible) {n n' : Int} {ty ty' : OrderType}
    {p p' : Option ℚ} (h : orderRow platform n ty p = orderRow platform n' ty' p') :
    n = n' ∧ ty = ty' ∧ p = p' := by
  simp only [orderRow, Prod.mk.injEq, List.cons.injEq, and_true, true_and] at h
  obtain ⟨hn, hty, hp⟩ := h
  refine ⟨toString_inj (String.toList_inj.mp hn), OrderType.value_inj (String.toList_inj.mp hty), ?_⟩
  cases p with
  | none =>
      cases p' with
      | none => rfl
      | some q => cases hp
  | some q =>
      cases p' with
      | none => cases hp
      | some q' =>
          simp only [Option.map_some, Option.toList_some, List.cons.injEq, Prod.mk.injEq, true_and,
            and_true] at hp
          rw [hlegible.floatStr_inj _ _ (String.toList_inj.mp hp)]

theorem MarksClear.sameReading (h : MarksClear platform request context)
    (hlegible : platform.Legible)
    (hkey : keyString platform request context = keyString platform request' context') :
    SameReading platform request request' context context' := by
  obtain ⟨hassemble, htime⟩ := (keyString_eq_iff hlegible).mp hkey
  have hclear : Clear request.direction.toList (keyMarks platform)
      (keyParts platform request context) :=
    ⟨h.direction_order, h.signal_order, h.signal_strategy, h.strategy_strategy, h.strategy_strike,
      h.symbol_strike, trivial⟩
  obtain ⟨hdirection, hparts⟩ := assemble_inj (keyMarks_apart hlegible)
    (keyMarks_separate hlegible) (fun _ hK => hK) (keyParts_fits platform request context)
    (keyParts_fits platform request' context') hclear hassemble
  simp only [keyParts, List.cons.injEq, Prod.mk.injEq, and_true, true_and] at hparts
  obtain ⟨⟨horder, hsignal⟩, hstrategy, hstrike, hsymbol⟩ := hparts
  obtain ⟨hlot, htype, hprice⟩ := orderRow_inj hlegible
    (keyRow_mark_inj hlegible (orderRow_mem _ _ _) (orderRow_mem _ _ _) horder)
  have hstrikeRow := keyRow_mark_inj hlegible (strikeRow_mem _) (strikeRow_mem _) hstrike
  simp only [strikeRow, Prod.mk.injEq, List.cons.injEq, and_true, true_and] at hstrikeRow
  exact ⟨String.toList_inj.mp hdirection, hlot, htype, hprice, hsignal,
    String.toList_inj.mp hstrategy,
    hlegible.floatStr_inj _ _ (String.toList_inj.mp hstrikeRow), hsymbol, htime⟩

/-! ## Which keys are an order's own -/

/-- No other order has this one's key string. -/
def KeyIsOwn (platform : Platform) (request : OrderRequest) (context : ExecutionContext) : Prop :=
  ∀ request' context', keyFields request' context' ≠ keyFields request context →
    keyString platform request' context' ≠ keyString platform request context

/-- Nothing in the order can be taken for another field: no optional number stands behind a text, no
text ends in such a number, and none holds a mark of the places beside it. -/
structure ReadsOneWay (platform : Platform) (request : OrderRequest) (context : ExecutionContext) :
    Prop extends MarksClear platform request context where
  noStopLoss : request.stopLoss = none
  noTarget : request.target = none
  signal_end : ∀ v, ¬ optionalText platform "stop_loss" (some v) <:+ context.signalId.toList
  symbol_end : ∀ v, ¬ optionalText platform "target" (some v) <:+ request.symbol.toList

/-- A text that does not end in an optional number is read together with none. -/
theorem optional_none_of_reading {name : String} {s s' : List Char} {value : Option ℚ}
    (hend : ∀ v, ¬ optionalText platform name (some v) <:+ s)
    (h : s = s' ++ optionalText platform name value) : value = none ∧ s = s' := by
  cases value with
  | none => exact ⟨rfl, by simpa [optionalText] using h⟩
  | some v => exact absurd ⟨s', h.symm⟩ (hend v)

theorem ReadsOneWay.keyIsOwn (h : ReadsOneWay platform request context)
    (hlegible : platform.Legible) : KeyIsOwn platform request context := by
  intro request' context' hfields hkey
  have hread := h.toMarksClear.sameReading hlegible hkey.symm
  have hsignal := hread.signal
  have hsymbol := hread.symbol
  simp only [signalText, symbolText, h.noStopLoss, h.noTarget] at hsignal hsymbol
  obtain ⟨hstop, hid⟩ := optional_none_of_reading h.signal_end
    (by simpa [optionalText] using hsignal)
  obtain ⟨htarget, hname⟩ := optional_none_of_reading h.symbol_end
    (by simpa [optionalText] using hsymbol)
  refine hfields ?_
  simp only [keyFields, KeyFields.mk.injEq]
  exact ⟨(String.toList_inj.mp hname).symm, hread.direction.symm, hread.strikePrice.symm,
    hread.lotSize.symm, hread.orderType.symm, hread.price.symm, hstop.trans h.noStopLoss.symm,
    htarget.trans h.noTarget.symm, hread.strategyId.symm, (String.toList_inj.mp hid).symm,
    hread.timestamp.symm⟩

/-! The other way round: each piece that breaks the condition is where another order is cut. -/

section Cuts

theorem KeyIsOwn.fields_eq (h : KeyIsOwn platform request context) (hlegible : platform.Legible)
    (request' : OrderRequest) (context' : ExecutionContext)
    (htime : context'.signalTimestamp = context.signalTimestamp)
    (hparts : assemble request'.direction.toList (keyParts platform request' context') =
      assemble request.direction.toList (keyParts platform request context)) :
    keyFields request' context' = keyFields request context := by
  by_contra hne
  exact h request' context' hne ((keyString_eq_iff hlegible).mpr ⟨hparts, htime⟩)

theorem ofList_ne_of_length {l : List Char} {t : String} (h : l.length ≠ t.toList.length) :
    String.ofList l ≠ t := by
  rintro rfl
  exact h (by rw [String.toList_ofList])

theorem mark_length_pos (row : FieldRow Char) : 0 < (row.mark '&' '=').length := by
  obtain ⟨name, rest, -, hmark⟩ := FieldRow.mark_eq_cons '&' '=' row
  simp [hmark]

theorem ofList_before_ne {row : FieldRow Char} {u v : List Char} {t : String}
    (h : u ++ row.mark '&' '=' ++ v = t.toList) : String.ofList u ≠ t := by
  refine ofList_ne_of_length ?_
  have hpos := mark_length_pos row
  rw [← h, List.length_append, List.length_append]
  omega

theorem ofList_behind_ne {row : FieldRow Char} {u v : List Char} {t : String}
    (h : u ++ row.mark '&' '=' ++ v = t.toList) : String.ofList v ≠ t := by
  refine ofList_ne_of_length ?_
  have hpos := mark_length_pos row
  rw [← h, List.length_append, List.length_append]
  omega

variable (h : KeyIsOwn platform request context) (hlegible : platform.Legible)

include h hlegible

theorem KeyIsOwn.noStopLoss : request.stopLoss = none := by
  cases hstop : request.stopLoss with
  | none => rfl
  | some v =>
      have hfields := h.fields_eq hlegible { request with stopLoss := none }
        { context with
          signalId := String.ofList
            (context.signalId.toList ++ optionalText platform "stop_loss" (some v)) }
        rfl (by simp [keyParts, hstop, optionalText])
      have hnone : none = request.stopLoss := congrArg KeyFields.stopLoss hfields
      rw [← hnone] at hstop
      cases hstop

theorem KeyIsOwn.noTarget : request.target = none := by
  cases htarget : request.target with
  | none => rfl
  | some v =>
      have hfields := h.fields_eq hlegible
        { request with
          target := none
          symbol := String.ofList
            (request.symbol.toList ++ optionalText platform "target" (some v)) }
        context rfl (by simp [keyParts, htarget, optionalText])
      have hnone : none = request.target := congrArg KeyFields.target hfields
      rw [← hnone] at htarget
      cases htarget

theorem KeyIsOwn.signal_end (v : ℚ) :
    ¬ optionalText platform "stop_loss" (some v) <:+ context.signalId.toList := by
  rintro ⟨u, hu⟩
  have hstop := h.noStopLoss hlegible
  have hfields := h.fields_eq hlegible { request with stopLoss := some v }
    { context with signalId := String.ofList u }
    rfl (by simp [keyParts, hstop, ← hu, optionalText])
  have hsome : some v = request.stopLoss := congrArg KeyFields.stopLoss hfields
  rw [hstop] at hsome
  cases hsome

theorem KeyIsOwn.symbol_end (v : ℚ) :
    ¬ optionalText platform "target" (some v) <:+ request.symbol.toList := by
  rintro ⟨u, hu⟩
  have htarget := h.noTarget hlegible
  have hfields := h.fields_eq hlegible
    { request with target := some v, symbol := String.ofList u } context
    rfl (by simp [keyParts, htarget, ← hu, optionalText])
  have hsome : some v = request.target := congrArg KeyFields.target hfields
  rw [htarget] at hsome
  cases hsome

theorem KeyIsOwn.direction_order : Free (orderMarks platform) request.direction.toList := by
  rintro m ⟨lotSize, orderType, price, rfl⟩ ⟨u, v, huv⟩
  have hfields := h.fields_eq hlegible
    { request with
      direction := String.ofList u
      lotSize := lotSize
      orderType := orderType
      price := price }
    { context with
      signalId := String.ofList (v ++
        (orderRow platform request.lotSize request.orderType request.price).mark '&' '=' ++
          context.signalId.toList) }
    rfl (by simp [keyParts, assemble, ← huv])
  exact ofList_before_ne huv (congrArg KeyFields.direction hfields)

theorem KeyIsOwn.signal_order : Free (orderMarks platform) context.signalId.toList := by
  rintro m ⟨lotSize, orderType, price, rfl⟩ ⟨u, v, huv⟩
  have hfields := h.fields_eq hlegible
    { request with
      direction := String.ofList (request.direction.toList ++
        (orderRow platform request.lotSize request.orderType request.price).mark '&' '=' ++ u)
      lotSize := lotSize
      orderType := orderType
      price := price }
    { context with signalId := String.ofList v }
    rfl (by simp [keyParts, assemble, ← huv])
  exact ofList_behind_ne huv (congrArg KeyFields.signalId hfields)

theorem KeyIsOwn.signal_strategy : Free strategyMarks context.signalId.toList := by
  rintro m rfl ⟨u, v, huv⟩
  have hstop := h.noStopLoss hlegible
  have hfields := h.fields_eq hlegible
    { request with
      strategyId := String.ofList
        (v ++ strategyRow.mark '&' '=' ++ request.strategyId.toList) }
    { context with signalId := String.ofList u }
    rfl (by simp [keyParts, assemble, hstop, optionalText, ← huv])
  exact ofList_before_ne huv (congrArg KeyFields.signalId hfields)

theorem KeyIsOwn.strategy_strategy : Free strategyMarks request.strategyId.toList := by
  rintro m rfl ⟨u, v, huv⟩
  have hstop := h.noStopLoss hlegible
  have hfields := h.fields_eq hlegible
    { request with strategyId := String.ofList v }
    { context with
      signalId := String.ofList
        (context.signalId.toList ++ strategyRow.mark '&' '=' ++ u) }
    rfl (by simp [keyParts, assemble, hstop, optionalText, ← huv])
  exact ofList_behind_ne huv (congrArg KeyFields.strategyId hfields)

theorem KeyIsOwn.strategy_strike : Free (strikeMarks platform) request.strategyId.toList := by
  rintro m ⟨strikePrice, rfl⟩ ⟨u, v, huv⟩
  have hfields := h.fields_eq hlegible
    { request with
      strategyId := String.ofList u
      strikePrice := strikePrice
      symbol := String.ofList (v ++
        (strikeRow platform request.strikePrice).mark '&' '=' ++ request.symbol.toList) }
    context rfl (by simp [keyParts, assemble, ← huv])
  exact ofList_before_ne huv (congrArg KeyFields.strategyId hfields)

theorem KeyIsOwn.symbol_strike : Free (strikeMarks platform) request.symbol.toList := by
  rintro m ⟨strikePrice, rfl⟩ ⟨u, v, huv⟩
  have hfields := h.fields_eq hlegible
    { request with
      strategyId := String.ofList (request.strategyId.toList ++
        (strikeRow platform request.strikePrice).mark '&' '=' ++ u)
      strikePrice := strikePrice
      symbol := String.ofList v }
    context rfl (by simp [keyParts, assemble, ← huv])
  exact ofList_behind_ne huv (congrArg KeyFields.symbol hfields)

theorem KeyIsOwn.readsOneWay : ReadsOneWay platform request context where
  direction_order := h.direction_order hlegible
  signal_order := by
    simpa [signalText, h.noStopLoss hlegible, optionalText] using h.signal_order hlegible
  signal_strategy := by
    simpa [signalText, h.noStopLoss hlegible, optionalText] using h.signal_strategy hlegible
  strategy_strategy := h.strategy_strategy hlegible
  strategy_strike := h.strategy_strike hlegible
  symbol_strike := by
    simpa [symbolText, h.noTarget hlegible, optionalText] using h.symbol_strike hlegible
  noStopLoss := h.noStopLoss hlegible
  noTarget := h.noTarget hlegible
  signal_end := h.signal_end hlegible
  symbol_end := h.symbol_end hlegible

end Cuts

/-! ## Orders with plain texts -/

/-- Two optional numbers behind texts that end in none are the same. -/
theorem optional_inj_of_ends (hlegible : platform.Legible) {name : String}
    (hname : '&' ∉ name.toList) {s s' : List Char} {value value' : Option ℚ}
    (hend : ∀ v, ¬ optionalText platform name (some v) <:+ s)
    (hend' : ∀ v, ¬ optionalText platform name (some v) <:+ s')
    (h : s ++ optionalText platform name value = s' ++ optionalText platform name value') :
    s = s' ∧ value = value' := by
  cases value with
  | none =>
      obtain ⟨hvalue, hs⟩ := optional_none_of_reading hend
        (by simpa [optionalText] using h)
      exact ⟨hs, hvalue.symm⟩
  | some v =>
      cases value' with
      | none =>
          have hback : s' = s ++ optionalText platform name (some v) := by
            simpa [optionalText] using h.symm
          cases (optional_none_of_reading hend' hback).1
      | some v' =>
          have hamp : ∀ q, '&' ∉ name.toList ++ '=' :: (platform.floatStr q).toList := by
            intro q
            rw [List.mem_append, List.mem_cons, not_or, not_or]
            exact ⟨hname, by decide, hlegible.floatStr_amp q⟩
          obtain ⟨hs, hfield⟩ := append_cons_inj_of_last (hamp v) (hamp v') h
          have hvalue := (List.cons.inj (List.append_cancel_left hfield)).2
          exact ⟨hs, congrArg some (hlegible.floatStr_inj _ _ (String.toList_inj.mp hvalue))⟩

/-- The texts in front of the optional numbers end in no such number of their own. -/
structure PlainEnds (platform : Platform) (request : OrderRequest) (context : ExecutionContext) :
    Prop where
  signal : ∀ v, ¬ optionalText platform "stop_loss" (some v) <:+ context.signalId.toList
  symbol : ∀ v, ¬ optionalText platform "target" (some v) <:+ request.symbol.toList

/-- With a stop loss or a target as well, two orders have different key strings where both texts in
front of these end plainly and one of the orders holds no marks. -/
theorem MarksClear.keyString_ne (h : MarksClear platform request context)
    (hlegible : platform.Legible) (hends : PlainEnds platform request context)
    (hends' : PlainEnds platform request' context')
    (hfields : keyFields request' context' ≠ keyFields request context) :
    keyString platform request' context' ≠ keyString platform request context := by
  intro hkey
  have hread := h.sameReading hlegible hkey.symm
  obtain ⟨hid, hstop⟩ := optional_inj_of_ends hlegible (by decide +kernel) hends.signal
    hends'.signal hread.signal
  obtain ⟨hname, htarget⟩ := optional_inj_of_ends hlegible (by decide +kernel) hends.symbol
    hends'.symbol hread.symbol
  refine hfields ?_
  simp only [keyFields, KeyFields.mk.injEq]
  exact ⟨(String.toList_inj.mp hname).symm, hread.direction.symm, hread.strikePrice.symm,
    hread.lotSize.symm, hread.orderType.symm, hread.price.symm, hstop.symm, htarget.symm,
    hread.strategyId.symm, (String.toList_inj.mp hid).symm, hread.timestamp.symm⟩

theorem amp_mem_mark (row : FieldRow Char) : '&' ∈ row.mark '&' '=' := by
  obtain ⟨name, rest, -, hmark⟩ := FieldRow.mark_eq_cons '&' '=' row
  simp [hmark]

theorem free_of_plain {M : Set (List Char)} {t : List Char} (hM : ∀ m ∈ M, '&' ∈ m)
    (ht : '&' ∉ t) : Free M t :=
  fun m hm hinside => ht (hinside.subset (hM m hm))

theorem plain_end {name : String} {t : List Char} (ht : '&' ∉ t) (v : ℚ) :
    ¬ optionalText platform name (some v) <:+ t :=
  fun hsuffix => ht (hsuffix.subset List.mem_cons_self)

/-- An order with neither stop loss nor target reads one way where its texts hold no `&`. -/
theorem readsOneWay_of_plain (hstop : request.stopLoss = none) (htarget : request.target = none)
    (hdirection : '&' ∉ request.direction.toList) (hsignal : '&' ∉ context.signalId.toList)
    (hstrategy : '&' ∉ request.strategyId.toList) (hsymbol : '&' ∉ request.symbol.toList) :
    ReadsOneWay platform request context := by
  have horder : ∀ m ∈ orderMarks platform, '&' ∈ m := by
    rintro m ⟨lotSize, orderType, price, rfl⟩
    exact amp_mem_mark _
  have hstrategyMarks : ∀ m ∈ strategyMarks, '&' ∈ m := by
    rintro m rfl
    exact amp_mem_mark _
  have hstrike : ∀ m ∈ strikeMarks platform, '&' ∈ m := by
    rintro m ⟨strikePrice, rfl⟩
    exact amp_mem_mark _
  have hsignalText : '&' ∉ signalText platform request context := by
    simpa [signalText, hstop, optionalText] using hsignal
  have hsymbolText : '&' ∉ symbolText platform request := by
    simpa [symbolText, htarget, optionalText] using hsymbol
  exact
    { direction_order := free_of_plain horder hdirection
      signal_order := free_of_plain horder hsignalText
      signal_strategy := free_of_plain hstrategyMarks hsignalText
      strategy_strategy := free_of_plain hstrategyMarks hstrategy
      strategy_strike := free_of_plain hstrike hstrategy
      symbol_strike := free_of_plain hstrike hsymbolText
      noStopLoss := hstop
      noTarget := htarget
      signal_end := plain_end hsignal
      symbol_end := plain_end hsymbol }

/-! ## When the key string is the order's own -/

/-- The key of an order is its own exactly when the order reads one way. -/
theorem keyIsOwn_iff (platform : Platform) (hlegible : platform.Legible) (request : OrderRequest)
    (context : ExecutionContext) :
    KeyIsOwn platform request context ↔ ReadsOneWay platform request context :=
  ⟨fun h => h.readsOneWay hlegible, fun h => h.keyIsOwn hlegible⟩

/-- Whole prices and the first seconds of the epoch print as Python prints them. -/
def plainPlatform : Platform where
  floatStr q := toString q.num ++ "." ++ toString (q.den - 1)
  isoformat t := "1970-01-01T00:00:0" ++ toString t
  sha256Hex _ := String.ofList (List.replicate 64 '1')
  sha256Hex_length _ := by decide +kernel

theorem plainPlatform_legible : plainPlatform.Legible where
  floatStr_inj p q h := by
    obtain ⟨hnum, hden⟩ := string_append_inj_of_last '.' (by decide +kernel)
      (notMem_toString_nat (by decide) _) (notMem_toString_nat (by decide) _) h
    have hpred := toString_nat_inj hden
    have hp := p.den_pos
    have hq := q.den_pos
    exact Rat.ext (toString_inj hnum) (by omega)
  floatStr_amp q := by
    simp only [plainPlatform, String.toList_append, List.mem_append, not_or]
    exact ⟨⟨notMem_toString (by decide) (by decide) _, by decide +kernel⟩,
      notMem_toString_nat (by decide) _⟩
  isoformat_inj s t h := by
    have hlists := congrArg String.toList h
    rw [plainPlatform, String.toList_append, String.toList_append] at hlists
    exact toString_inj (String.toList_inj.mp (List.append_cancel_left hlists))
  isoformat_amp t := by
    simp only [plainPlatform, String.toList_append, List.mem_append, not_or]
    exact ⟨by decide +kernel, notMem_toString (by decide) (by decide) _⟩

def plainRequest : OrderRequest :=
  { symbol := "NIFTY", direction := "BUY", strikePrice := 22500, lotSize := 50
    orderType := .limit, price := some 120, strategyId := "breakout" }

def plainContext : ExecutionContext := { signalId := "signal-1", signalTimestamp := 0 }

theorem plainRequest_keyIsOwn : KeyIsOwn plainPlatform plainRequest plainContext :=
  (keyIsOwn_iff plainPlatform plainPlatform_legible plainRequest plainContext).mpr
    (readsOneWay_of_plain rfl rfl (by decide +kernel) (by decide +kernel) (by decide +kernel)
      (by decide +kernel))

/-- An order of `M&M` with a target, and one of a symbol that spells the target. -/
def targetRequest : OrderRequest :=
  { plainRequest with symbol := "M&M", target := some 150 }

def spelledRequest : OrderRequest := { plainRequest with symbol := "M&M&target=150.0" }

theorem spelled_target_shares_key :
    keyFields spelledRequest plainContext ≠ keyFields targetRequest plainContext ∧
      keyString plainPlatform spelledRequest plainContext =
        keyString plainPlatform targetRequest plainContext ∧
      keyString plainPlatform targetRequest plainContext =
        "direction=BUY&lot_size=50&order_type=LIMIT&price=120.0&signal_id=signal-1" ++
          "&strategy_id=breakout&strike_price=22500.0&symbol=M&M&target=150.0" ++
          "&timestamp=1970-01-01T00:00:00" := by
  decide +kernel

end AutoTrade.Execution
