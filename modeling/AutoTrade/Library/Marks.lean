import AutoTrade.Library.Text
import Mathlib.Data.List.Forall2
import Mathlib.Data.List.Infix
import Mathlib.Data.Set.Basic

/-! # Texts between marks

A text is put together from parts with a mark between each two of them, one
family of marks for each place. Where no two marks can overlap, the parts can
be read back from a text whose parts are clear of the marks beside them.
-/

namespace AutoTrade.Library

variable {α : Type}

/-- No part at the end of a mark can be the start of another, and none starts with another. -/
def Apart (M : Set (List α)) : Prop :=
  ∀ ⦃m⦄, m ∈ M → ∀ ⦃m'⦄, m' ∈ M → ∀ ⦃a b x y : List α⦄, m = a ++ b → b ≠ [] → b ++ x = m' ++ y →
    a = [] ∧ m = m'

theorem Apart.mono {M N : Set (List α)} (hN : Apart N) (h : ∀ m ∈ M, m ∈ N) : Apart M :=
  fun m hm m' hm' => hN (h m hm) (h m' hm')

/-- None of the marks occurs in the text. -/
def Free (M : Set (List α)) (t : List α) : Prop := ∀ m ∈ M, ¬ m <:+: t

theorem Free.ne_append {M : Set (List α)} {t m : List α} (h : Free M t) (hm : m ∈ M)
    (u v : List α) : t ≠ u ++ m ++ v :=
  fun ht => h m hm ⟨u, v, ht.symm⟩

section Align

variable {M : Set (List α)} {s m t s' m' t' : List α}

private theorem align_of_le (hM : Apart M) (hm : m ∈ M) (hm' : m' ∈ M) {c : List α}
    (hs : s' = s ++ c) (h : m ++ t = c ++ m' ++ t') :
    (s = s' ∧ m = m' ∧ t = t') ∨ ∃ w, s' = s ++ m ++ w ∧ t = w ++ m' ++ t' := by
  rw [List.append_assoc] at h
  rcases List.append_eq_append_iff.mp h with ⟨w, hc, ht⟩ | ⟨b, hb, ht⟩
  · exact Or.inr ⟨w, by rw [hs, hc, List.append_assoc], by rw [ht, List.append_assoc]⟩
  · by_cases hnil : b = []
    · subst hnil
      refine Or.inr ⟨[], ?_, ?_⟩
      · rw [hs, hb]; simp
      · simpa using ht.symm
    · obtain ⟨hc, hmm⟩ := hM hm hm' hb hnil ht.symm
      subst hc hmm
      rw [List.nil_append] at hb
      subst hb
      exact Or.inl ⟨by simpa using hs.symm, rfl, (List.append_cancel_left ht).symm⟩

/-- Two marks in one text are the same mark, or one of them lies before the other. -/
theorem Apart.align (hM : Apart M) (hm : m ∈ M) (hm' : m' ∈ M)
    (h : s ++ m ++ t = s' ++ m' ++ t') :
    (s = s' ∧ m = m' ∧ t = t') ∨ (∃ w, s = s' ++ m' ++ w ∧ t' = w ++ m ++ t) ∨
      ∃ w, s' = s ++ m ++ w ∧ t = w ++ m' ++ t' := by
  have h' := h
  rw [List.append_assoc, List.append_assoc] at h'
  rcases List.append_eq_append_iff.mp h' with ⟨c, hs, hrest⟩ | ⟨c, hs, hrest⟩
  · rw [← List.append_assoc] at hrest
    rcases align_of_le hM hm hm' hs hrest with heq | hlater
    · exact Or.inl heq
    · exact Or.inr (Or.inr hlater)
  · rw [← List.append_assoc] at hrest
    rcases align_of_le hM hm' hm hs hrest with ⟨hss, hmm, htt⟩ | hearlier
    · exact Or.inl ⟨hss.symm, hmm.symm, htt.symm⟩
    · exact Or.inr (Or.inl hearlier)

end Align

/-! ## Parts and families -/

/-- A first text, then each mark followed by the text behind it. -/
def assemble (t : List α) : List (List α × List α) → List α
  | [] => t
  | (m, u) :: parts => t ++ m ++ assemble u parts

/-- Each mark is of the family of its place. -/
def Fits (Ms : List (Set (List α))) (parts : List (List α × List α)) : Prop :=
  List.Forall₂ (fun M part => part.1 ∈ M) Ms parts

/-- The texts on both sides of each place hold no mark of its family. -/
def Clear (t : List α) : List (Set (List α)) → List (List α × List α) → Prop
  | M :: Ms, (_, u) :: parts => Free M t ∧ Free M u ∧ Clear u Ms parts
  | _, _ => True

/-- All the families together. -/
def marks (Ms : List (Set (List α))) : Set (List α) := {m | ∃ M ∈ Ms, m ∈ M}

/-- No mark is of two of the families. -/
def Separate (Ms : List (Set (List α))) : Prop := Ms.Pairwise fun M K => ∀ m ∈ M, m ∉ K

section Reading

variable {Ns Ms : List (Set (List α))} {t t' : List α} {parts parts' : List (List α × List α)}

/-- No reading has the mark of a place behind the text after that place: each mark that comes too
late pushes the next one back, and none is left for the last. -/
private theorem not_late {M : Set (List α)} (hN : Apart (marks Ns)) (hseparate : Separate (M :: Ms))
    (hsub : ∀ K ∈ M :: Ms, K ∈ Ns) (hfit : Fits Ms parts) (hfit' : Fits Ms parts')
    (hfree : Free M t) (hclear : Clear t Ms parts) {w m' u' : List α} (hm' : m' ∈ M)
    (h : assemble t parts = w ++ m' ++ assemble u' parts') : False := by
  unfold Fits at hfit
  induction hfit generalizing M t w m' u' parts' with
  | nil => exact hfree.ne_append hm' _ _ h
  | @cons K part Ks rest hk _ ih =>
      obtain ⟨k, u⟩ := part
      obtain ⟨⟨k', v'⟩, rest', hk', hrest', rfl⟩ := List.forall₂_cons_left_iff.mp hfit'
      obtain ⟨_, hfreeU, hclearU⟩ := hclear
      obtain ⟨hMK, hseparateK⟩ := List.pairwise_cons.mp hseparate
      have hkN : k ∈ marks Ns := ⟨K, hsub K (by simp), hk⟩
      have hmN : m' ∈ marks Ns := ⟨M, hsub M (by simp), hm'⟩
      rcases hN.align hkN hmN h with ⟨-, hkm, -⟩ | ⟨x, ht, -⟩ | ⟨x, -, hu⟩
      · exact hMK K List.mem_cons_self m' hm' (hkm ▸ hk)
      · exact hfree.ne_append hm' _ _ ht
      · have hnext : assemble u rest = (x ++ m' ++ u') ++ k' ++ assemble v' rest' := by
          rw [hu]
          simp [assemble, List.append_assoc]
        exact ih hseparateK (fun J hJ => hsub J (by simp [hJ])) hrest' hfreeU hclearU hk' hnext

/-- A text whose parts are clear of their marks has one reading. -/
theorem assemble_inj (hN : Apart (marks Ns)) (hseparate : Separate Ms) (hsub : ∀ K ∈ Ms, K ∈ Ns)
    (hfit : Fits Ms parts) (hfit' : Fits Ms parts') (hclear : Clear t Ms parts)
    (h : assemble t parts = assemble t' parts') : t = t' ∧ parts = parts' := by
  unfold Fits at hfit
  induction hfit generalizing t t' parts' with
  | nil =>
      obtain rfl := List.forall₂_nil_left_iff.mp hfit'
      exact ⟨h, rfl⟩
  | @cons M part Ks rest hm hrest ih =>
      obtain ⟨m, u⟩ := part
      obtain ⟨⟨m', u'⟩, rest', hm', hrest', rfl⟩ := List.forall₂_cons_left_iff.mp hfit'
      obtain ⟨hfreeT, hfreeU, hclearU⟩ := hclear
      have hmN : m ∈ marks Ns := ⟨M, hsub M (by simp), hm⟩
      have hmN' : m' ∈ marks Ns := ⟨M, hsub M (by simp), hm'⟩
      rcases hN.align hmN hmN' h with ⟨ht, hmm, hu⟩ | ⟨x, ht, -⟩ | ⟨x, -, hu⟩
      · obtain ⟨huu, hparts⟩ := ih (List.pairwise_cons.mp hseparate).2
          (fun J hJ => hsub J (by simp [hJ])) hrest' hclearU hu
        rw [ht, hmm, huu, hparts]
        exact ⟨rfl, rfl⟩
      · exact absurd ht (hfreeT.ne_append hm' _ _)
      · exact (not_late hN hseparate hsub hrest hrest' hfreeU hclearU hm' hu).elim

end Reading

/-! ## Marks made of fields

A mark can be a row of fields `&name=value` closed by the next `&`, with an open
field `&name=` at its end, whose value is the text behind the mark.
-/

section Fields

/-- Closed fields, and the name of the open one. -/
abbrev FieldRow (α : Type) := List (List α × List α) × List α

variable {amp eq : α}

def fieldText (amp eq : α) (field : List α × List α) : List α := amp :: field.1 ++ eq :: field.2

def FieldRow.mark (amp eq : α) (row : FieldRow α) : List α :=
  row.1.flatMap (fieldText amp eq) ++ fieldText amp eq (row.2, [])

def FieldRow.names (row : FieldRow α) : List (List α) := row.1.map Prod.fst ++ [row.2]

/-- The separators stand only where the row puts them. -/
structure FieldRow.Plain (amp eq : α) (row : FieldRow α) : Prop where
  name_amp : ∀ name ∈ row.names, amp ∉ name
  name_eq : ∀ name ∈ row.names, eq ∉ name
  value_amp : ∀ field ∈ row.1, amp ∉ field.2

theorem FieldRow.mark_cons (field : List α × List α) (closed : List (List α × List α))
    (last : List α) : FieldRow.mark amp eq (field :: closed, last) =
      fieldText amp eq field ++ FieldRow.mark amp eq (closed, last) := by
  simp [FieldRow.mark, List.append_assoc]

theorem FieldRow.Plain.tail {field : List α × List α} {closed : List (List α × List α)}
    {last : List α} (h : FieldRow.Plain amp eq (field :: closed, last)) :
    FieldRow.Plain amp eq (closed, last) :=
  ⟨fun name hname => h.name_amp name (List.mem_cons_of_mem _ hname),
    fun name hname => h.name_eq name (List.mem_cons_of_mem _ hname),
    fun f hf => h.value_amp f (List.mem_cons_of_mem _ hf)⟩

theorem FieldRow.Plain.of_append {before after : List (List α × List α)} {last : List α}
    (h : FieldRow.Plain amp eq (before ++ after, last)) :
    FieldRow.Plain amp eq (after, last) := by
  induction before with
  | nil => exact h
  | cons field before ih => exact ih h.tail

/-- What a mark starts with: its first name between the separators. -/
theorem FieldRow.mark_eq_cons (amp eq : α) (row : FieldRow α) : ∃ name rest,
    row.names.head? = some name ∧ FieldRow.mark amp eq row = amp :: name ++ eq :: rest := by
  obtain ⟨closed, last⟩ := row
  cases closed with
  | nil => exact ⟨last, [], rfl, by simp [FieldRow.mark, fieldText]⟩
  | cons field closed =>
      refine ⟨field.1, field.2 ++ FieldRow.mark amp eq (closed, last), rfl, ?_⟩
      rw [FieldRow.mark_cons]
      simp [fieldText, List.append_assoc]

/-- A separator inside a mark is the start of one of its fields. -/
theorem FieldRow.split_mark {closed : List (List α × List α)} {last a b : List α}
    (hplain : FieldRow.Plain amp eq (closed, last)) (hsep : amp ≠ eq)
    (h : FieldRow.mark amp eq (closed, last) = a ++ amp :: b) :
    ∃ before after, closed = before ++ after ∧ a = before.flatMap (fieldText amp eq) ∧
      amp :: b = FieldRow.mark amp eq (after, last) := by
  induction closed generalizing a with
  | nil =>
      cases a with
      | nil => exact ⟨[], [], rfl, rfl, h.symm⟩
      | cons c a =>
          have hlast : last ++ [eq] = a ++ amp :: b := (List.cons.inj h).2
          have hmem : amp ∈ last ++ [eq] := by
            rw [hlast]
            simp
          rcases List.mem_append.mp hmem with hname | heq
          · exact absurd hname (hplain.name_amp last (by simp [FieldRow.names]))
          · exact absurd (List.mem_singleton.mp heq) hsep
  | cons field closed ih =>
      rw [FieldRow.mark_cons] at h
      cases a with
      | nil => exact ⟨[], field :: closed, rfl, rfl, by rw [FieldRow.mark_cons]; exact h.symm⟩
      | cons c a =>
          obtain ⟨hc, hrest⟩ := List.cons.inj h
          have hfield : amp ∉ field.1 ++ eq :: field.2 := by
            simp only [List.mem_append, List.mem_cons, not_or]
            exact ⟨hplain.name_amp field.1 (by simp [FieldRow.names]), hsep,
              hplain.value_amp field (by simp)⟩
          obtain ⟨w, ha, hmark⟩ := exists_append_of_notMem hfield hrest
          obtain ⟨before, after, hclosed, hbefore, hafter⟩ := ih hplain.tail hmark
          refine ⟨field :: before, after, by rw [hclosed]; rfl, ?_, hafter⟩
          rw [← hc, ha, hbefore]
          rfl

/-- An open field that stands where a closed one does has its name. -/
theorem FieldRow.open_eq_closed {field : List α × List α} {closed : List (List α × List α)}
    {last open' x y : List α} (hopen : FieldRow.Plain amp eq ([], open'))
    (hplain : FieldRow.Plain amp eq (field :: closed, last))
    (h : FieldRow.mark amp eq ([], open') ++ x = FieldRow.mark amp eq (field :: closed, last) ++ y) :
    open' = field.1 := by
  rw [FieldRow.mark_cons] at h
  have hnames : open' ++ eq :: x =
      field.1 ++ eq :: (field.2 ++ FieldRow.mark amp eq (closed, last) ++ y) := by
    simpa [FieldRow.mark, fieldText, List.append_assoc] using h
  exact (append_cons_inj_of_first (hopen.name_eq open' (by simp [FieldRow.names]))
    (hplain.name_eq field.1 (by simp [FieldRow.names])) hnames).1

/-- Two marks at the start of one text have the same fields, unless the open name of one is the
name of a closed field of the other. -/
theorem FieldRow.mark_inj {closed closed' : List (List α × List α)} {last last' x y : List α}
    (hplain : FieldRow.Plain amp eq (closed, last))
    (hplain' : FieldRow.Plain amp eq (closed', last'))
    (hlast : last ∉ closed'.map Prod.fst) (hlast' : last' ∉ closed.map Prod.fst)
    (h : FieldRow.mark amp eq (closed, last) ++ x = FieldRow.mark amp eq (closed', last') ++ y) :
    closed = closed' ∧ last = last' ∧ x = y := by
  induction closed generalizing closed' with
  | nil =>
      cases closed' with
      | nil =>
          have hnames : last ++ eq :: x = last' ++ eq :: y := by
            simpa [FieldRow.mark, fieldText] using h
          obtain ⟨hname, hx⟩ := append_cons_inj_of_first
            (hplain.name_eq last (by simp [FieldRow.names]))
            (hplain'.name_eq last' (by simp [FieldRow.names])) hnames
          exact ⟨rfl, hname, hx⟩
      | cons field' closed' =>
          exact absurd (by simp [FieldRow.open_eq_closed hplain hplain' h]) hlast
  | cons field closed ih =>
      cases closed' with
      | nil => exact absurd (by simp [FieldRow.open_eq_closed hplain' hplain h.symm]) hlast'
      | cons field' closed' =>
          rw [FieldRow.mark_cons, FieldRow.mark_cons] at h
          obtain ⟨name, rest, -, hrest⟩ := FieldRow.mark_eq_cons amp eq (closed, last)
          obtain ⟨name', rest', -, hrest'⟩ :=
            FieldRow.mark_eq_cons amp eq (closed', last')
          have hnames : field.1 ++ eq :: (field.2 ++ FieldRow.mark amp eq (closed, last) ++ x) =
              field'.1 ++ eq :: (field'.2 ++ FieldRow.mark amp eq (closed', last') ++ y) := by
            simpa [fieldText, List.append_assoc] using h
          obtain ⟨hname, hvalues⟩ := append_cons_inj_of_first
            (hplain.name_eq field.1 (by simp [FieldRow.names]))
            (hplain'.name_eq field'.1 (by simp [FieldRow.names])) hnames
          rw [hrest, hrest'] at hvalues
          obtain ⟨hvalue, hmarks⟩ := append_cons_inj_of_first
            (hplain.value_amp field (by simp)) (hplain'.value_amp field' (by simp))
            (by simpa [List.append_assoc] using hvalues)
          have hnext : FieldRow.mark amp eq (closed, last) ++ x =
              FieldRow.mark amp eq (closed', last') ++ y := by
            rw [hrest, hrest']
            simpa using hmarks
          obtain ⟨hclosed, hlasts, hx⟩ := ih hplain.tail hplain'.tail
            (fun hmem => hlast (by simp [hmem])) (fun hmem => hlast' (by simp [hmem])) hnext
          exact ⟨by rw [Prod.ext hname hvalue, hclosed], hlasts, hx⟩

theorem FieldRow.open_notMem_closed {row row' : FieldRow α}
    (h : ∀ name ∈ row.names.getLast?, name ∉ row'.names.dropLast) :
    row.2 ∉ row'.1.map Prod.fst := by
  have hname := h row.2 (by simp [FieldRow.names])
  rwa [FieldRow.names, List.dropLast_concat] at hname

/-- Marks do not overlap where the first name of each is no later name of any, and the open name of
each is no closed name of any. -/
theorem apart_of_rows {rows : Set (FieldRow α)} (hsep : amp ≠ eq)
    (hplain : ∀ row ∈ rows, row.Plain amp eq)
    (hhead : ∀ row ∈ rows, ∀ row' ∈ rows, ∀ name ∈ row.names.head?, name ∉ row'.names.tail)
    (hlast : ∀ row ∈ rows, ∀ row' ∈ rows, ∀ name ∈ row.names.getLast?, name ∉ row'.names.dropLast) :
    Apart {m | ∃ row ∈ rows, m = row.mark amp eq} := by
  have hopen : ∀ row ∈ rows, ∀ row' ∈ rows, row.2 ∉ row'.1.map Prod.fst :=
    fun row hrow row' hrow' => FieldRow.open_notMem_closed (hlast row hrow row' hrow')
  rintro m ⟨⟨closed, last⟩, hrow, rfl⟩ m' ⟨row', hrow', rfl⟩ a b x y hm hb h
  obtain ⟨name, rest, hname, hmark⟩ := FieldRow.mark_eq_cons amp eq row'
  cases b with
  | nil => exact absurd rfl hb
  | cons d b =>
      have hd : d = amp := by
        rw [hmark] at h
        exact (List.cons.inj h).1
      subst hd
      obtain ⟨before, after, hclosed, ha, hafter⟩ := FieldRow.split_mark (hplain _ hrow) hsep hm
      subst hclosed
      rw [hafter] at h
      obtain ⟨hrows, hlasts, -⟩ := FieldRow.mark_inj (hplain _ hrow).of_append (hplain _ hrow')
        (hopen _ hrow _ hrow') (fun hmem => hopen _ hrow' _ hrow (by
          rw [List.map_append]
          exact List.mem_append_right _ hmem)) h
      cases before with
      | nil => exact ⟨ha, by rw [List.nil_append, hrows, hlasts]⟩
      | cons field before =>
          have hmem : name ∈ row'.names := List.mem_of_mem_head? hname
          rw [FieldRow.names, ← hrows, ← hlasts] at hmem
          refine absurd ?_ (hhead _ hrow' _ hrow name hname)
          simp only [FieldRow.names, List.cons_append, List.map_cons, List.tail_cons,
            List.map_append, List.append_assoc]
          exact List.mem_append_right _ hmem

end Fields

end AutoTrade.Library
