import AutoTrade.Runtime
import AutoTrade.Library.Hinges
import AutoTrade.Library.Selection
import AutoTrade.Library.Table

/-! # Max pain

`compute_max_pain` of `max_pain.py`: the listed strike at which the holders of
the open options would be paid least. Only listed strikes are tried, which is
enough because the payout is a sum of hinges with their kinks at the strikes.
-/

namespace AutoTrade.Market

open AutoTrade.Library

/-- Strikes with their entries in `calls` and in `puts`; a list is `none` where its key is missing, and
the open interest of an entry where it has no `oi`. -/
structure OptionChain where
  calls : Option (List (ℚ × Option Int)) := none
  puts : Option (List (ℚ × Option Int)) := none
deriving DecidableEq, Repr

structure OptionChainStrike where
  strike : ℚ
  callOi : Int := 0
  putOi : Int := 0
deriving DecidableEq, Repr

structure NearestStrike where
  strike : ℚ
  pain : ℚ
  diffFromMinPct : ℚ
deriving DecidableEq, Repr

structure MaxPainResult where
  maxPainStrike : ℚ
  painIndex : ℚ
  spotPrice : ℚ
  totalOi : Int
  callOiTotal : Int
  putOiTotal : Int
  putCallRatio : ℚ
  painCurve : List (ℚ × ℚ)
  nearestStrikes : List NearestStrike := []
  timestamp : Time
deriving DecidableEq, Repr

/-- `call_oi_map` and `put_oi_map`. -/
structure OiMaps where
  call : Dict ℚ Int
  put : Dict ℚ Int

namespace OiMaps

def ofEntries (entries : List (ℚ × Int)) : Dict ℚ Int :=
  entries.foldl (fun map entry => map.set entry.1 entry.2) Table.empty

def callOi (maps : OiMaps) (strike : ℚ) : Int := (maps.call.get? strike).getD 0

def putOi (maps : OiMaps) (strike : ℚ) : Int := (maps.put.get? strike).getD 0

/-- `all_strikes`, in order. -/
def strikes (maps : OiMaps) : List ℚ :=
  (maps.call.rows.map Prod.fst ++ maps.put.rows.map Prod.fst).dedup.mergeSort (· ≤ ·)

/-- `total_pain` where the settlement is at this price. -/
def totalPain (maps : OiMaps) (settlement : ℚ) : ℚ :=
  (maps.strikes.map fun s =>
    (if 0 < maps.callOi s ∧ s < settlement then (settlement - s) * maps.callOi s else 0) +
      if 0 < maps.putOi s ∧ settlement < s then (s - settlement) * maps.putOi s else 0).sum

def painCurve (maps : OiMaps) : List (ℚ × ℚ) :=
  maps.strikes.map fun s => (s, roundTo 2 (maps.totalPain s))

end OiMaps

/-- Two strikes on either side of the minimum, where the curve has them. -/
def nearestStrikes (curve : List (ℚ × ℚ)) (least : ℚ × ℚ) : List NearestStrike :=
  let idx := (curve.map Prod.fst).idxOf least.1
  (List.range 5).filterMap fun k =>
    if 2 ≤ idx + k then
      (curve[idx + k - 2]?).map fun point =>
        { strike := point.1
          pain := point.2
          diffFromMinPct :=
            roundTo 1 (if 0 < least.2 then |point.2 / least.2 - 1| * 100 else 0) }
    else none

/-- The maps of an option chain that is not empty, else of a list of strikes that is not. -/
def oiMaps (optionChain : Option OptionChain) (strikes : List OptionChainStrike) :
    Except String OiMaps :=
  match optionChain.filter fun chain => chain.calls.isSome || chain.puts.isSome with
  | some chain =>
      .ok { call := OiMaps.ofEntries ((chain.calls.getD []).map fun e => (e.1, e.2.getD 0))
            put := OiMaps.ofEntries ((chain.puts.getD []).map fun e => (e.1, e.2.getD 0)) }
  | none =>
      if strikes = [] then .error "Either option_chain or strikes must be provided"
      else .ok { call := OiMaps.ofEntries (strikes.map fun s => (s.strike, s.callOi))
                 put := OiMaps.ofEntries (strikes.map fun s => (s.strike, s.putOi)) }

def computeMaxPain (showFloat : ℚ → String) (now : Time) (spotPrice : ℚ)
    (optionChain : Option OptionChain) (strikes : List OptionChainStrike) :
    Except String MaxPainResult :=
  if spotPrice ≤ 0 then .error ("Invalid spot price: " ++ showFloat spotPrice)
  else
    match oiMaps optionChain strikes with
    | .error e => .error e
    | .ok maps =>
        match maps.painCurve with
        | [] =>
            .ok
              { maxPainStrike := 0, painIndex := 0, spotPrice := spotPrice, totalOi := 0
                callOiTotal := 0, putOiTotal := 0, putCallRatio := 0, painCurve := []
                timestamp := now }
        | first :: rest =>
            let least := firstMin Prod.snd first rest
            let totalCallOi := (maps.call.rows.map Prod.snd).sum
            let totalPutOi := (maps.put.rows.map Prod.snd).sum
            .ok
              { maxPainStrike := least.1
                painIndex := least.2
                spotPrice := spotPrice
                totalOi := totalCallOi + totalPutOi
                callOiTotal := totalCallOi
                putOiTotal := totalPutOi
                putCallRatio := roundTo 4 (totalPutOi / (max totalCallOi 1 : Int))
                painCurve := first :: rest
                nearestStrikes := nearestStrikes (first :: rest) least
                timestamp := now }

/-! ## What the option holders are paid -/

namespace OiMaps

theorem mem_strikes {maps : OiMaps} {s : ℚ} :
    s ∈ maps.strikes ↔ s ∈ maps.call.rows.map Prod.fst ++ maps.put.rows.map Prod.fst := by
  rw [strikes, List.mem_mergeSort, List.mem_dedup]

/-- What the open options of a strike pay, by the settlement price. -/
def hinge (maps : OiMaps) (strike : ℚ) : Hinge ℚ :=
  { kink := strike, above := maps.callOi strike, below := maps.putOi strike }

/-- The payout to all holders at a settlement price. -/
def payout (maps : OiMaps) (settlement : ℚ) : ℚ :=
  (maps.strikes.map fun s =>
    maps.callOi s * max 0 (settlement - s) + maps.putOi s * max 0 (s - settlement)).sum

/-- No open interest is negative. -/
def Nonneg (maps : OiMaps) : Prop := ∀ strike, 0 ≤ maps.callOi strike ∧ 0 ≤ maps.putOi strike

theorem payout_eq_total (maps : OiMaps) (settlement : ℚ) :
    maps.payout settlement = Hinge.total (maps.strikes.map maps.hinge) settlement := by
  rw [payout, Hinge.total, List.map_map]
  rfl

/-- The tests of the loop leave out nothing but zeros. -/
theorem totalPain_eq_payout {maps : OiMaps} (h : maps.Nonneg) (settlement : ℚ) :
    maps.totalPain settlement = maps.payout settlement := by
  have hside : ∀ (oi : Int) (move : ℚ), 0 ≤ oi →
      (if 0 < oi ∧ 0 < move then move * oi else 0) = oi * max 0 move := by
    intro oi move hoi
    by_cases hmove : 0 < move
    · rw [max_eq_right hmove.le]
      rcases hoi.eq_or_lt with rfl | hpos
      · simp
      · rw [if_pos ⟨hpos, hmove⟩, mul_comm]
    · rw [if_neg fun hboth => hmove hboth.2, max_eq_left (not_lt.mp hmove), mul_zero]
  refine congrArg List.sum (List.map_congr_left fun s _ => ?_)
  rw [← hside _ _ (h s).1, ← hside _ _ (h s).2]
  simp only [sub_pos]

/-- Some listed strike pays no more than any price at all. -/
theorem exists_strike_le {maps : OiMaps} (h : maps.Nonneg) (hlisted : maps.strikes ≠ [])
    (settlement : ℚ) : ∃ s ∈ maps.strikes, maps.payout s ≤ maps.payout settlement := by
  have hrising : ∀ hinge ∈ maps.strikes.map maps.hinge, hinge.Rising := by
    intro hinge hmem
    obtain ⟨s, -, rfl⟩ := List.mem_map.mp hmem
    exact ⟨Int.cast_nonneg (h s).1, Int.cast_nonneg (h s).2⟩
  obtain ⟨hinge, hmem, hle⟩ := Hinge.exists_kink_le hrising
    (List.map_eq_nil_iff.not.mpr hlisted) settlement
  obtain ⟨s, hs, rfl⟩ := List.mem_map.mp hmem
  rw [← payout_eq_total, ← payout_eq_total] at hle
  exact ⟨s, hs, hle⟩

/-! ## Where the open interest comes from -/

theorem mem_of_get?_ofEntries {entries : List (ℚ × Int)} {strike : ℚ} {oi : Int}
    (h : (ofEntries entries).get? strike = some oi) : (strike, oi) ∈ entries := by
  have hfold : ∀ (entries : List (ℚ × Int)) (map : Dict ℚ Int),
      (entries.foldl (fun map entry => map.set entry.1 entry.2) map).get? strike = some oi →
        (strike, oi) ∈ entries ∨ map.get? strike = some oi := by
    intro entries
    induction entries with
    | nil => exact fun map h => Or.inr h
    | cons entry rest ih =>
        intro map h
        rcases ih _ h with hrest | hmap
        · exact Or.inl (List.mem_cons_of_mem entry hrest)
        · rw [Dict.get?_set] at hmap
          split at hmap
          · rename_i hkey
            obtain rfl := Option.some.inj hmap
            exact Or.inl (hkey ▸ List.mem_cons_self)
          · exact Or.inr hmap
  exact (hfold entries Table.empty h).resolve_right fun hempty => by cases hempty

theorem getD_ofEntries_nonneg {entries : List (ℚ × Int)} (h : ∀ entry ∈ entries, 0 ≤ entry.2)
    (strike : ℚ) : 0 ≤ ((ofEntries entries).get? strike).getD 0 := by
  cases hget : (ofEntries entries).get? strike with
  | none => exact le_rfl
  | some oi => exact h _ (mem_of_get?_ofEntries hget)

end OiMaps

/-- No open interest in the chain or in the list is negative. -/
structure NonnegOi (optionChain : Option OptionChain) (strikes : List OptionChainStrike) :
    Prop where
  calls : ∀ chain ∈ optionChain, ∀ entry ∈ chain.calls.getD [], ∀ oi ∈ entry.2, 0 ≤ oi
  puts : ∀ chain ∈ optionChain, ∀ entry ∈ chain.puts.getD [], ∀ oi ∈ entry.2, 0 ≤ oi
  strikes : ∀ s ∈ strikes, 0 ≤ s.callOi ∧ 0 ≤ s.putOi

theorem nonneg_of_oiMaps {optionChain : Option OptionChain} {strikes : List OptionChainStrike}
    {maps : OiMaps} (hoi : NonnegOi optionChain strikes)
    (hmaps : oiMaps optionChain strikes = .ok maps) : maps.Nonneg := by
  have hentry : ∀ entries : List (ℚ × Option Int), (∀ e ∈ entries, ∀ oi ∈ e.2, 0 ≤ oi) →
      ∀ e ∈ entries.map fun e => (e.1, e.2.getD 0), 0 ≤ e.2 := by
    intro entries h e he
    obtain ⟨source, hsource, rfl⟩ := List.mem_map.mp he
    cases hvalue : source.2 with
    | none => exact le_of_eq (by simp)
    | some oi => simpa [hvalue] using h source hsource oi hvalue
  unfold oiMaps at hmaps
  split at hmaps
  · rename_i chain hchain
    have hmem : chain ∈ optionChain := (Option.filter_eq_some_iff.mp hchain).1
    obtain rfl := Except.ok.inj hmaps
    exact fun strike =>
      ⟨OiMaps.getD_ofEntries_nonneg (hentry _ (hoi.calls chain hmem)) strike,
        OiMaps.getD_ofEntries_nonneg (hentry _ (hoi.puts chain hmem)) strike⟩
  · split at hmaps
    · cases hmaps
    · obtain rfl := Except.ok.inj hmaps
      refine fun strike => ⟨OiMaps.getD_ofEntries_nonneg ?_ strike,
        OiMaps.getD_ofEntries_nonneg ?_ strike⟩
      · exact List.forall_mem_map.mpr fun s hs => (hoi.strikes s hs).1
      · exact List.forall_mem_map.mpr fun s hs => (hoi.strikes s hs).2

/-! ## The minimum -/

/-- At a valid spot price and for open interest that is nowhere negative, the strike returned is
listed, its index is the payout there to two decimals, and no settlement price at all pays less. -/
theorem max_pain_is_global_minimum (showFloat : ℚ → String) (now : Time) (spotPrice : ℚ)
    (optionChain : Option OptionChain) (strikes : List OptionChainStrike) (maps : OiMaps)
    (hspot : 0 < spotPrice) (hoi : NonnegOi optionChain strikes)
    (hmaps : oiMaps optionChain strikes = .ok maps) (hlisted : maps.strikes ≠ []) :
    ∃ result, computeMaxPain showFloat now spotPrice optionChain strikes = .ok result ∧
      result.maxPainStrike ∈ maps.strikes ∧
      result.painIndex = roundTo 2 (maps.payout result.maxPainStrike) ∧
      ∀ settlement, result.painIndex ≤ roundTo 2 (maps.payout settlement) := by
  have hnonneg := nonneg_of_oiMaps hoi hmaps
  have hpoint : ∀ point ∈ maps.painCurve,
      point.1 ∈ maps.strikes ∧ point.2 = roundTo 2 (maps.payout point.1) := by
    intro point hpoint
    obtain ⟨s, hs, rfl⟩ := List.mem_map.mp hpoint
    exact ⟨hs, by rw [OiMaps.totalPain_eq_payout hnonneg]⟩
  have hcurve : ∀ s ∈ maps.strikes, (s, roundTo 2 (maps.payout s)) ∈ maps.painCurve := by
    intro s hs
    rw [← OiMaps.totalPain_eq_payout hnonneg]
    exact List.mem_map_of_mem hs
  unfold computeMaxPain
  rw [if_neg (not_le.mpr hspot), hmaps]
  dsimp only
  cases hpoints : maps.painCurve with
  | nil => exact absurd (List.map_eq_nil_iff.mp hpoints) hlisted
  | cons first rest =>
      rw [hpoints] at hpoint hcurve
      obtain ⟨hmem, hmin⟩ := firstMin_spec Prod.snd first rest
      obtain ⟨hstrike, hpain⟩ := hpoint _ hmem
      refine ⟨_, rfl, hstrike, hpain, fun settlement => ?_⟩
      obtain ⟨s, hs, hle⟩ := OiMaps.exists_strike_le hnonneg hlisted settlement
      exact (hmin _ (hcurve s hs)).trans (roundTo_mono 2 hle)

/-- Calls held at both strikes, puts at the upper one. -/
def sampleChain : OptionChain :=
  { calls := some [(25000, some 10), (25100, some 4)], puts := some [(25100, some 6)] }

/-- No settlement pays the holders less than the strike found. -/
theorem sampleChain_max_pain :
    ∃ result, computeMaxPain (fun _ => "") 0 25050 (some sampleChain) [] = .ok result ∧
      ∀ settlement, result.painIndex ≤ roundTo 2 (OiMaps.payout
        { call := OiMaps.ofEntries [(25000, 10), (25100, 4)]
          put := OiMaps.ofEntries [(25100, 6)] } settlement) := by
  obtain ⟨result, hok, -, -, hmin⟩ := max_pain_is_global_minimum (fun _ => "") 0 25050
    (some sampleChain) [] { call := OiMaps.ofEntries [(25000, 10), (25100, 4)]
                            put := OiMaps.ofEntries [(25100, 6)] }
    (by decide) ⟨by decide, by decide, by decide⟩ rfl
    (List.ne_nil_of_mem (a := 25000) (OiMaps.mem_strikes.mpr (by decide +kernel)))
  exact ⟨result, hok, hmin⟩

end AutoTrade.Market
