import AutoTrade.Positions.PositionService
import Mathlib.Algebra.Order.Field.Basic

/-! # Realised profit and loss

A closed trade is booked as the exit price less the entry price, times the
quantity, whichever side its entry order was on. Every position a run holds is
traced to the entry order that opened it, and the booking is compared with the
profit or loss of that order's side. The stop and target tests of
`monitor_positions` do know the side, so what they close is counted on the wrong
side of the books for a put.
-/

namespace AutoTrade.Positions

open AutoTrade.Library AutoTrade.Execution

/-- The hand-over reports this profit or loss. -/
def Handover.Reports (pnl : ℚ) : Handover → Prop
  | .updateDailyPnl reported => reported = pnl
  | .incrementTradeCount => True
  | .recordTradeOutcome won => won = decide (pnl > 0)
  | .recordTradeResult reported won => reported = pnl ∧ won = decide (pnl > 0)
  | .recordTradeClose reported won => reported = pnl ∧ won = decide (pnl > 0)
  | .recordClosedTrade row => row.grossPnl = pnl ∧ row.netPnl = pnl

namespace PositionService

variable {σ : Type}

/-! ## Every position was opened by an entry order -/

/-- The order that opened the position: an entry of its name, side, price and quantity that
filled. -/
structure Opened (order : SentOrder σ) (name : String) (pos : Position) : Prop where
  entry : order.isExit = false
  number : order.position = pos.openedBy
  symbol : order.request.symbol = name
  side : order.request.direction = pos.entryOrderDirection
  signal : orderDirection pos.direction = pos.entryOrderDirection
  price : order.request.price = some pos.entryPrice
  qty : order.request.lotSize = pos.qty
  filled : ∃ result, order.outcome = .ok result ∧ ExecutionService.isFill result

def AllOpened (s : PositionService σ) : Prop :=
  ∀ name pos, s.positions.get? name = some pos →
    ∃ order, s.orders[pos.openedBy]? = some order ∧ Opened order name pos

/-- The same trade, however often it was watched or failed to exit. -/
structure SameTrade (old pos : Position) : Prop where
  direction : pos.direction = old.direction
  qty : pos.qty = old.qty
  entryPrice : pos.entryPrice = old.entryPrice
  side : pos.entryOrderDirection = old.entryOrderDirection
  openedBy : pos.openedBy = old.openedBy

theorem SameTrade.refl (pos : Position) : SameTrade pos pos := ⟨rfl, rfl, rfl, rfl, rfl⟩

theorem Opened.sameTrade {order : SentOrder σ} {name : String} {old pos : Position}
    (opened : Opened order name old) (same : SameTrade old pos) : Opened order name pos where
  entry := opened.entry
  number := by rw [same.openedBy]; exact opened.number
  symbol := opened.symbol
  side := by rw [same.side]; exact opened.side
  signal := by rw [same.direction, same.side]; exact opened.signal
  price := by rw [same.entryPrice]; exact opened.price
  qty := by rw [same.qty]; exact opened.qty
  filled := opened.filled

/-- Orders are added, and no trade is. -/
structure NoEntry (s t : PositionService σ) : Prop where
  orders : s.orders <+: t.orders
  positions : ∀ name pos, t.positions.get? name = some pos →
    ∃ old, s.positions.get? name = some old ∧ SameTrade old pos

theorem NoEntry.refl (s : PositionService σ) : NoEntry s s :=
  ⟨List.prefix_rfl, fun _ pos h => ⟨pos, h, .refl pos⟩⟩

theorem NoEntry.trans {s t u : PositionService σ} (first : NoEntry s t) (second : NoEntry t u) :
    NoEntry s u := by
  refine ⟨first.orders.trans second.orders, ?_⟩
  intro name pos hpos
  obtain ⟨mid, hmid, hlater⟩ := second.positions name pos hpos
  obtain ⟨old, hold, hearlier⟩ := first.positions name mid hmid
  exact ⟨old, hold, hlater.direction.trans hearlier.direction, hlater.qty.trans hearlier.qty,
    hlater.entryPrice.trans hearlier.entryPrice, hlater.side.trans hearlier.side,
    hlater.openedBy.trans hearlier.openedBy⟩

theorem NoEntry.allOpened {s t : PositionService σ} (h : NoEntry s t) (opened : s.AllOpened) :
    t.AllOpened := by
  intro name pos hpos
  obtain ⟨old, hold, hsame⟩ := h.positions name pos hpos
  obtain ⟨order, horder, hopened⟩ := opened name old hold
  obtain ⟨more, hmore⟩ := h.orders
  have hbound : old.openedBy < s.orders.length := (List.getElem?_eq_some_iff.mp horder).1
  refine ⟨order, ?_, hopened.sameTrade hsame⟩
  rw [hsame.openedBy, ← hmore, List.getElem?_append_left hbound]
  exact horder

theorem noEntry_sendExit (venue : Venue σ) (name reason : String) (ltp : Option ℚ) (pos : Position)
    (s : PositionService σ) : NoEntry s (sendExit venue name reason ltp pos s).1 := by
  cases venue with
  | none => exact .refl s
  | some execute =>
      exact ⟨List.prefix_append _ _, fun _ pos h => ⟨pos, h, .refl pos⟩⟩

/-- Writing a later form of the same trade under its name. -/
theorem noEntry_set {s t : PositionService σ} {name : String} {old pos : Position}
    (hold : s.positions.get? name = some old) (same : SameTrade old pos)
    (horders : t.orders = s.orders) (hpositions : t.positions = s.positions.set name pos) :
    NoEntry s t := by
  refine ⟨horders ▸ List.prefix_rfl, ?_⟩
  intro other found hfound
  rw [hpositions, Dict.get?_set] at hfound
  split at hfound
  · rename_i hother
    cases hfound
    exact ⟨old, hother ▸ hold, same⟩
  · exact ⟨found, hfound, .refl found⟩

theorem noEntry_erase {s t : PositionService σ} {name : String} (horders : t.orders = s.orders)
    (hpositions : t.positions = s.positions.erase name) : NoEntry s t := by
  refine ⟨horders ▸ List.prefix_rfl, ?_⟩
  intro other found hfound
  rw [hpositions, Dict.get?_erase] at hfound
  split at hfound
  · cases hfound
  · exact ⟨found, hfound, .refl found⟩

theorem noEntry_exitPosition (settings : Settings) (venue : Venue σ) (name reason : String)
    (ltp : Option ℚ) (s : PositionService σ) :
    NoEntry s (exitPosition settings venue name reason ltp s).1 := by
  unfold exitPosition
  split
  · exact .refl s
  · rename_i pos hpos
    have hsent := noEntry_sendExit venue name reason ltp pos s
    have hkept : (sendExit venue name reason ltp pos s).1.positions.get? name = some pos := by
      cases venue <;> exact hpos
    dsimp only
    split
    · exact hsent
    · split
      · refine hsent.trans ?_
        unfold keepOrGiveUp
        dsimp only
        split
        · exact noEntry_erase rfl rfl
        · refine noEntry_set hkept ?_ rfl rfl
          exact ⟨rfl, rfl, rfl, rfl, rfl⟩
      · exact hsent.trans (noEntry_erase rfl rfl)

theorem sameTrade_verdict (settings : Settings) (now ltp : ℚ) (pos : Position) :
    SameTrade pos (verdict settings now ltp pos).1 := by
  obtain ⟨peak, armed, h⟩ := verdict_position settings now ltp pos
  rw [h]
  exact ⟨rfl, rfl, rfl, rfl, rfl⟩

theorem noEntry_monitorName (settings : Settings) (venue : Venue σ) (quotes : Quotes) (now : ℚ)
    (s : PositionService σ) (name : String) :
    NoEntry s (monitorName settings venue quotes now s name).1 := by
  obtain ⟨-, hskip⟩ | ⟨pos, ltp, hpos, -, -, hwatched⟩ :=
    monitorName_cases settings venue quotes now s name
  · rw [hskip]
    exact .refl s
  · have hstored : NoEntry s (storePosition name (verdict settings now ltp pos).1 s) :=
      noEntry_set hpos (sameTrade_verdict settings now ltp pos) rfl rfl
    obtain ⟨-, hstays⟩ | ⟨reason, -, hexits⟩ := hwatched
    · rw [hstays]
      exact hstored
    · rw [hexits]
      exact hstored.trans (noEntry_exitPosition settings venue name reason _ _)

theorem allOpened_enterTrade (venue : Venue σ) (entry : EntryCall) {s : PositionService σ}
    (opened : s.AllOpened) : (enterTrade venue entry s).1.AllOpened := by
  obtain ⟨-, hnothing⟩ | ⟨qty, context, execute, -, -, hsent⟩ := enterTrade_cases venue entry s
  · rw [hnothing]
    exact opened
  · have hsubmitted : NoEntry s (submitOrderUnderLock execute entry qty context s).1 :=
      ⟨List.prefix_append _ _, fun _ pos h => ⟨pos, h, .refl pos⟩⟩
    obtain ⟨-, hafter⟩ | ⟨result, hout, hfill, hafter⟩ := hsent
    · rw [hafter]
      exact hsubmitted.allOpened opened
    · rw [hafter]
      intro name pos hpos
      simp only [storePosition, Dict.get?_set] at hpos
      split at hpos
      · rename_i hname
        cases hpos
        refine ⟨_, List.getElem?_concat_length, rfl, rfl, hname.symm, rfl, rfl, rfl, rfl, ?_⟩
        exact ⟨result, hout, hfill⟩
      · exact hsubmitted.allOpened opened name pos hpos

/-- Every position a run holds was opened by one of the run's entry orders. -/
theorem allOpened_run (settings : Settings) (execution : σ)
    (calls : List (Venue σ × PositionCall)) :
    (run (step settings) { execution } calls).AllOpened := by
  refine run_invariant ?_ ?_ calls
  · intro s op opened
    obtain ⟨venue, call⟩ := op
    cases call with
    | enterTrade entry => exact allOpened_enterTrade venue entry opened
    | exitPosition name reason ltp =>
        exact (noEntry_exitPosition settings venue name reason ltp s).allOpened opened
    | monitorPositions quotes now =>
        exact loop_invariant (fun t name _ ht =>
          (noEntry_monitorName settings venue quotes now t name).allOpened ht) opened
  · intro name pos hpos
    cases hpos

/-! ## Bookings -/

/-- The exit order is filled and the position is booked as closed at this price. -/
def ClosedAt (venue : Venue σ) (name reason : String) (ltp : Option ℚ) (pos : Position)
    (s : PositionService σ) (exitPrice : ℚ) : Prop :=
  ∃ result, (sendExit venue name reason ltp pos s).2 = .ok (some result) ∧
    ExecutionService.isFill result ∧ exitPrice = priceOr (some result.averagePrice) pos.entryPrice ∧
    judgedFailed pos reason exitPrice = false

theorem exitPosition_of_closedAt (settings : Settings) {venue : Venue σ} {name reason : String}
    {ltp : Option ℚ} {pos : Position} {s : PositionService σ} {exitPrice : ℚ}
    (hpos : s.positions.get? name = some pos)
    (closed : ClosedAt venue name reason ltp pos s exitPrice) :
    (exitPosition settings venue name reason ltp s).1 =
      close settings name reason pos exitPrice (sendExit venue name reason ltp pos s).1 := by
  obtain ⟨result, hout, hfill, hprice, hbooked⟩ := closed
  have hexit : exitPriceOf pos (sendExit venue name reason ltp pos s).2 = .ok exitPrice := by
    rw [hout, hprice]
    exact if_pos hfill
  simp [exitPosition, hpos, hexit, hbooked]

theorem sendExit_handedOver (venue : Venue σ) (name reason : String) (ltp : Option ℚ)
    (pos : Position) (s : PositionService σ) :
    (sendExit venue name reason ltp pos s).1.handedOver = s.handedOver := by
  cases venue <;> rfl

theorem recordTradeOutcome_mem_iff (settings : Settings) (name reason : String) (pos : Position)
    (exitPrice : ℚ) (won : Bool) :
    .recordTradeOutcome won ∈ handovers settings name reason pos exitPrice ↔
      won = decide (realisedPnl pos exitPrice > 0) := by
  simp [handovers]

theorem handovers_report (settings : Settings) (name reason : String) (pos : Position)
    (exitPrice : ℚ) :
    ∀ h ∈ handovers settings name reason pos exitPrice, h.Reports (realisedPnl pos exitPrice) := by
  intro h hmem
  simp only [handovers, List.mem_append, List.mem_ite_nil_right, List.mem_cons,
    List.not_mem_nil, or_false] at hmem
  obtain (((⟨-, rfl | rfl⟩ | rfl) | ⟨-, rfl⟩) | ⟨-, rfl⟩) | ⟨-, rfl⟩ := hmem
  · rfl
  · trivial
  · rfl
  · exact ⟨rfl, rfl⟩
  · exact ⟨rfl, rfl⟩
  · exact ⟨rfl, rfl⟩

/-- The outcome alone tells a profit from the loss of the same amount. -/
theorem handovers_report_neg_iff (settings : Settings) (name reason : String) (pos : Position)
    (exitPrice : ℚ) :
    (∀ h ∈ handovers settings name reason pos exitPrice, h.Reports (-realisedPnl pos exitPrice)) ↔
      realisedPnl pos exitPrice = 0 := by
  constructor
  · intro hall
    have hwon := hall _ ((recordTradeOutcome_mem_iff settings name reason pos exitPrice _).mpr rfl)
    simp only [Handover.Reports, decide_eq_decide, gt_iff_lt, Left.neg_pos_iff] at hwon
    grind
  · intro hzero
    have hall := handovers_report settings name reason pos exitPrice
    rw [hzero] at hall ⊢
    simpa using hall

theorem realisedPnl_eq_zero_iff (pos : Position) (exitPrice : ℚ) :
    realisedPnl pos exitPrice = 0 ↔ exitPrice = pos.entryPrice ∨ pos.qty = 0 := by
  simp [realisedPnl, sub_eq_zero]

/-- The booking is the profit or loss of the side the entry order was on. -/
def SignedBy (side : String) (pos : Position) (exitPrice : ℚ) (handed : List Handover) : Prop :=
  (side = "BUY" → ∀ h ∈ handed, h.Reports ((exitPrice - pos.entryPrice) * pos.qty)) ∧
    (side = "SELL" → ∀ h ∈ handed, h.Reports ((pos.entryPrice - exitPrice) * pos.qty))

theorem signedBy_iff (settings : Settings) (name reason side : String) (pos : Position)
    (exitPrice : ℚ) :
    SignedBy side pos exitPrice (handovers settings name reason pos exitPrice) ↔
      (side = "SELL" → exitPrice = pos.entryPrice ∨ pos.qty = 0) := by
  have hneg : (pos.entryPrice - exitPrice) * pos.qty = -realisedPnl pos exitPrice := by
    rw [realisedPnl, ← neg_mul, neg_sub]
  have hbuy := handovers_report settings name reason pos exitPrice
  unfold SignedBy
  rw [hneg, handovers_report_neg_iff, realisedPnl_eq_zero_iff]
  constructor
  · intro h
    exact h.2
  · intro h
    exact ⟨fun _ => hbuy, h⟩

/-! ## Stops and targets -/

/-- A target is counted as a profit and a stop as a loss. -/
def CountedFor (reason : String) (handed : List Handover) : Prop :=
  (reason = "TARGET_HIT" → .recordTradeOutcome true ∈ handed) ∧
    (reason = "SL_HIT" → .recordTradeOutcome false ∈ handed)

theorem countedFor_iff (settings : Settings) (name reason : String) (pos : Position)
    (exitPrice : ℚ) :
    CountedFor reason (handovers settings name reason pos exitPrice) ↔
      (reason = "TARGET_HIT" → 0 < realisedPnl pos exitPrice) ∧
        (reason = "SL_HIT" → realisedPnl pos exitPrice ≤ 0) := by
  simp [CountedFor, recordTradeOutcome_mem_iff]

theorem realisedPnl_pos_iff (pos : Position) (exitPrice : ℚ) : 0 < realisedPnl pos exitPrice ↔
    pos.entryPrice < exitPrice ∧ 0 < pos.qty ∨ exitPrice < pos.entryPrice ∧ pos.qty < 0 := by
  simp [realisedPnl, mul_pos_iff]

theorem trail_reason {settings : Settings} {now : ℚ} {pos : Position} {activates : Bool}
    {crossed : ℚ → Bool} {reason : String}
    (h : (trail settings now pos activates crossed).2 = some reason) :
    reason = "TRAIL_HIT" ∨ reason = "MAX_AGE" := by
  unfold trail ageReason at h
  dsimp only at h
  split at h
  · exact .inl (Option.some.inj h).symm
  · dsimp only at h
    split at h
    · exact .inr (Option.some.inj h).symm
    · cases h

/-- The reasons for an exit, with the move a stop or a target was hit at. -/
theorem verdict_reason {settings : Settings} {now ltp : ℚ} {pos : Position} {reason : String}
    (h : (verdict settings now ltp pos).2 = some reason) :
    (reason = "SL_HIT" ∧
        if pos.direction = "CALL" then movePct ltp pos ≤ -(1 - settings.slPct)
        else movePct ltp pos ≥ 1 - settings.slPct) ∨
      (reason = "TARGET_HIT" ∧
        if pos.direction = "CALL" then movePct ltp pos ≥ settings.targetPct - 1
        else movePct ltp pos ≤ -(settings.targetPct - 1)) ∨
      reason = "TRAIL_HIT" ∨ reason = "MAX_AGE" := by
  rcases verdict_cases settings now ltp pos with ⟨hstop, htest⟩ | ⟨htarget, htest⟩ |
    ⟨activates, crossed, htrail, -, -⟩
  · rw [hstop] at h
    exact .inl ⟨(Option.some.inj h).symm, htest⟩
  · rw [htarget] at h
    exact .inr (.inl ⟨(Option.some.inj h).symm, htest⟩)
  · rw [htrail] at h
    exact .inr (.inr (trail_reason h))

/-- The price is on the profitable side of the entry price for a quantity that was bought. -/
def AboveEntry (pos : Position) (price : ℚ) : Prop :=
  pos.entryPrice < price ∧ 0 < pos.qty ∨ price < pos.entryPrice ∧ pos.qty < 0

theorem countedFor_iff_aboveEntry (settings : Settings) (name reason : String) (pos : Position)
    (exitPrice : ℚ) :
    CountedFor reason (handovers settings name reason pos exitPrice) ↔
      (reason = "TARGET_HIT" → AboveEntry pos exitPrice) ∧
        (reason = "SL_HIT" → ¬ AboveEntry pos exitPrice) := by
  rw [countedFor_iff, ← not_lt, realisedPnl_pos_iff]
  exact Iff.rfl

theorem movePct_pos_iff {ltp : ℚ} {pos : Position} (hentry : 0 < pos.underlyingEntryPrice) :
    0 < movePct ltp pos ↔ pos.underlyingEntryPrice < ltp := by
  rw [movePct, div_pos_iff_of_pos_right hentry, sub_pos]

/-- For a position entered at the price of the underlying, a call's target and a put's stop are
above the entry price, and a call's stop and a put's target below. -/
theorem aboveEntry_iff_of_hit {settings : Settings} {now ltp : ℚ} {pos : Position} {reason : String}
    (hentry : 0 < pos.underlyingEntryPrice) (hsame : pos.entryPrice = pos.underlyingEntryPrice)
    (hqty : 0 < pos.qty) (hstop : settings.slPct < 1) (htarget : 1 < settings.targetPct)
    (hreason : (verdict settings now ltp pos).2 = some reason)
    (hhit : reason = "SL_HIT" ∨ reason = "TARGET_HIT") :
    AboveEntry pos ltp ↔ (pos.direction = "CALL" ↔ reason = "TARGET_HIT") := by
  have habove : AboveEntry pos ltp ↔ 0 < movePct ltp pos := by
    rw [movePct_pos_iff hentry, ← hsame]
    simp only [AboveEntry, hqty, and_true, not_lt.mpr hqty.le, and_false, or_false]
  rw [habove]
  obtain ⟨rfl, hmove⟩ | ⟨rfl, hmove⟩ | rfl | rfl := verdict_reason hreason
  · by_cases hcall : pos.direction = "CALL"
    · rw [if_pos hcall] at hmove
      refine iff_of_false ?_ (by simp [hcall])
      grind
    · rw [if_neg hcall] at hmove
      refine iff_of_true ?_ (by simp [hcall])
      grind
  · by_cases hcall : pos.direction = "CALL"
    · rw [if_pos hcall] at hmove
      refine iff_of_true ?_ (by simp [hcall])
      grind
    · rw [if_neg hcall] at hmove
      refine iff_of_false ?_ (by simp [hcall])
      grind
  · simp at hhit
  · simp at hhit

/-- The booking of a closed trade is that of its side, and a stop or a target is counted as one. -/
structure Fair (side reason : String) (pos : Position) (exitPrice : ℚ) (handed : List Handover) :
    Prop where
  signed : SignedBy side pos exitPrice handed
  counted : CountedFor reason handed

theorem fair_iff (settings : Settings) (name side reason : String) (pos : Position)
    (exitPrice : ℚ) :
    Fair side reason pos exitPrice (handovers settings name reason pos exitPrice) ↔
      (side = "SELL" → exitPrice = pos.entryPrice ∨ pos.qty = 0) ∧
        (reason = "TARGET_HIT" → AboveEntry pos exitPrice) ∧
        (reason = "SL_HIT" → ¬ AboveEntry pos exitPrice) := by
  rw [← signedBy_iff settings name reason side, ← countedFor_iff_aboveEntry settings name]
  constructor
  · intro h
    exact ⟨h.signed, h.counted⟩
  · intro h
    exact ⟨h.1, h.2⟩

theorem Opened.buy_of_call {order : SentOrder σ} {name : String} {pos : Position}
    (opened : Opened order name pos) (hcall : pos.direction = "CALL") :
    order.request.direction = "BUY" := by
  rw [opened.side, ← opened.signal, hcall]
  decide +kernel

theorem handedOver_exitPosition (settings : Settings) {venue : Venue σ} {name reason : String}
    {ltp : Option ℚ} {pos : Position} {s : PositionService σ} {exitPrice : ℚ}
    (hpos : s.positions.get? name = some pos)
    (closed : ClosedAt venue name reason ltp pos s exitPrice) :
    (exitPosition settings venue name reason ltp s).1.handedOver =
      s.handedOver ++ handovers settings name reason pos exitPrice := by
  rw [exitPosition_of_closedAt settings hpos closed, close, sendExit_handedOver]

/-- The exit of one name in the loop hands over what the exit of the watched position does. -/
theorem handedOver_monitorName {settings : Settings} {venue : Venue σ} {quotes : Quotes}
    {now ltp : ℚ} {s : PositionService σ} {name reason : String} {pos : Position}
    (hpos : s.positions.get? name = some pos) (hltp : quotes.observed name = some ltp)
    (hentry : 0 < pos.underlyingEntryPrice)
    (hreason : (verdict settings now ltp pos).2 = some reason)
    (closed : ClosedAt venue name reason (quotes.atExit name) (verdict settings now ltp pos).1
      (storePosition name (verdict settings now ltp pos).1 s) ltp) :
    (monitorName settings venue quotes now s name).1.handedOver =
      s.handedOver ++ handovers settings name reason pos ltp := by
  obtain ⟨hno, -⟩ | ⟨pos', ltp', hpos', hltp', -, hwatched⟩ :=
    monitorName_cases settings venue quotes now s name
  · exact absurd (hno pos ltp hpos hltp) (not_le.mpr hentry)
  · obtain rfl : pos = pos' := Option.some.inj (hpos.symm.trans hpos')
    obtain rfl : ltp = ltp' := Option.some.inj (hltp.symm.trans hltp')
    obtain ⟨hstays, -⟩ | ⟨reason', hexits, hafter⟩ := hwatched
    · rw [hstays] at hreason
      cases hreason
    · obtain rfl : reason = reason' := Option.some.inj (hreason.symm.trans hexits)
      rw [hafter, handedOver_exitPosition settings (Dict.get?_set_self _ _ _) closed]
      obtain ⟨peak, armed, hverdict⟩ := verdict_position settings now ltp pos
      rw [hverdict]
      rfl

/-- In every state of a run, a position's filled exit is booked with the sign of its entry order
exactly when that order was no sale, or nothing was gained or lost; a stop or a target reached by
`monitor_positions` and filled at the observed price is counted as such exactly when, besides, the
target is above the entry price and the stop is not. For a position entered at the price of the
underlying, that is for calls only. -/
theorem pnl_has_sign_of_trade_iff (settings : Settings) (execution : σ)
    (calls : List (Venue σ × PositionCall)) {s : PositionService σ} {name : String} {pos : Position}
    (reached : run (step settings) { execution } calls = s)
    (hpos : s.positions.get? name = some pos) :
    ∃ entry, s.orders[pos.openedBy]? = some entry ∧ Opened entry name pos ∧
      (∀ venue reason ltp exitPrice, ClosedAt venue name reason ltp pos s exitPrice →
        ∃ handed, (exitPosition settings venue name reason ltp s).1.handedOver =
            s.handedOver ++ handed ∧
          (SignedBy entry.request.direction pos exitPrice handed ↔
            (entry.request.direction = "SELL" → exitPrice = pos.entryPrice ∨ pos.qty = 0))) ∧
      ∀ venue quotes now ltp reason, quotes.observed name = some ltp →
        0 < pos.underlyingEntryPrice → (verdict settings now ltp pos).2 = some reason →
        ClosedAt venue name reason (quotes.atExit name) (verdict settings now ltp pos).1
          (storePosition name (verdict settings now ltp pos).1 s) ltp →
        ∃ handed, (monitorName settings venue quotes now s name).1.handedOver =
            s.handedOver ++ handed ∧
          (Fair entry.request.direction reason pos ltp handed ↔
            (entry.request.direction = "SELL" → ltp = pos.entryPrice ∨ pos.qty = 0) ∧
              (reason = "TARGET_HIT" → AboveEntry pos ltp) ∧
              (reason = "SL_HIT" → ¬ AboveEntry pos ltp)) ∧
          (pos.entryPrice = pos.underlyingEntryPrice → 0 < pos.qty → settings.slPct < 1 →
            1 < settings.targetPct → (reason = "SL_HIT" ∨ reason = "TARGET_HIT") →
            (Fair entry.request.direction reason pos ltp handed ↔ pos.direction = "CALL")) := by
  have hall : s.AllOpened := reached ▸ allOpened_run settings execution calls
  obtain ⟨entry, horder, hopened⟩ := hall name pos hpos
  refine ⟨entry, horder, hopened, ?_, ?_⟩
  · intro venue reason ltp exitPrice closed
    exact ⟨_, handedOver_exitPosition settings hpos closed, signedBy_iff ..⟩
  · intro venue quotes now ltp reason hltp hentry hreason closed
    refine ⟨_, handedOver_monitorName hpos hltp hentry hreason closed, fair_iff .., ?_⟩
    intro hsame hqty hstop htarget hhit
    have habove := aboveEntry_iff_of_hit hentry hsame hqty hstop htarget hreason hhit
    rw [fair_iff]
    by_cases hcall : pos.direction = "CALL"
    · have hbuy := hopened.buy_of_call hcall
      obtain rfl | rfl := hhit
      · simp [habove, hcall, hbuy]
      · simp [habove, hcall, hbuy]
    · obtain rfl | rfl := hhit
      · simp [habove, hcall]
      · simp [habove, hcall]

/-- One lot entered at 100 in this direction. -/
def oneLot (direction : String) : List (Venue Unit × PositionCall) :=
  [(answering (sampleFill .filled 1 100), .enterTrade (sampleEntry direction 1 "1"))]

def oneLotPosition (direction : String) : Position :=
  enteredPosition (sampleEntry direction 1 "1") 1 0 (sampleFill .filled 1 100)

/-- A bought lot that is sold ten higher is booked as a profit of ten. -/
theorem call_pnl_has_sign_of_buy : ∃ handed,
    (exitPosition {} (answering (sampleFill .filled 1 110)) "NIFTY" "TARGET_HIT" none
        (run (step {}) { execution := () } (oneLot "CALL"))).1.handedOver =
      (run (step {}) { execution := () } (oneLot "CALL")).handedOver ++ handed ∧
    ∀ h ∈ handed, h.Reports ((110 - 100) * (1 : Int)) := by
  have hclosed : ClosedAt (answering (sampleFill .filled 1 110)) "NIFTY" "TARGET_HIT" none
      (oneLotPosition "CALL") (run (step {}) { execution := () } (oneLot "CALL")) 110 :=
    ⟨sampleFill .filled 1 110, rfl, by decide, by decide +kernel, by decide +kernel⟩
  have hpos : (run (step {}) { execution := () } (oneLot "CALL")).positions.get? "NIFTY" =
      some (oneLotPosition "CALL") := by
    decide +kernel
  obtain ⟨entry, -, hopened, hexit, -⟩ :=
    pnl_has_sign_of_trade_iff {} () (oneLot "CALL") rfl hpos
  obtain ⟨handed, hhanded, hsigned⟩ := hexit _ _ _ _ hclosed
  have hbuy := hopened.buy_of_call rfl
  exact ⟨handed, hhanded, (hsigned.mpr (by simp [hbuy])).1 hbuy⟩

/-- A put entered at 100 and covered at the price `monitor_positions` observes. -/
def putClosedAt (ltp : ℚ) : PositionService Unit :=
  run (step {}) { execution := () } (oneLot "PUT" ++
    [(answering (sampleFill .filled 1 ltp),
      .monitorPositions ⟨fun _ => some ltp, fun _ => some ltp⟩ 2)])

/-- The put was sold. Its target, 40 below the entry, is booked as a loss, and its stop, 20 above,
as a profit. -/
theorem put_target_booked_as_loss :
    (∀ ltp ∈ [(60 : ℚ), 120], (putClosedAt ltp).positions.get? "NIFTY" = none ∧
      ((putClosedAt ltp).orders.map fun o => o.request.direction) = ["SELL", "BUY"]) ∧
    ¬ SignedBy "SELL" (oneLotPosition "PUT") 60 (putClosedAt 60).handedOver ∧
    ¬ CountedFor "TARGET_HIT" (putClosedAt 60).handedOver ∧
    ¬ CountedFor "SL_HIT" (putClosedAt 120).handedOver := by
  have hloss : Handover.updateDailyPnl (-40) ∈ (putClosedAt 60).handedOver := by decide +kernel
  refine ⟨by decide +kernel, ?_, ?_, ?_⟩
  · intro h
    have hreported : (-40 : ℚ) = (100 - 60) * (1 : Int) := h.2 rfl _ hloss
    exact absurd hreported (by decide +kernel)
  · intro h
    exact absurd (h.1 rfl) (by decide +kernel)
  · intro h
    exact absurd (h.2 rfl) (by decide +kernel)

end PositionService

end AutoTrade.Positions
