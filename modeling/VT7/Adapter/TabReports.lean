import VT7.Adapter.TabStops
import VT7.Parser.CsiGrammar

/-!
# Tab stop reports

A report lists the tab stops as decimal columns with a `/` between them, and another terminal sets the stops it reads
there.
-/

namespace VT7.Adapter

open VT7.Parser (digitChar)

/-! ### Numbers -/

/-- What `{}` makes of a number. -/
def digitsOf (n : ℕ) : List (Fin 10) :=
  if h : n < 10 then [⟨n, h⟩] else digitsOf (n / 10) ++ [Fin.ofNat 10 n]

lemma decimal_digitsOf (n : ℕ) : Parser.decimal (digitsOf n) = n := by
  fun_induction digitsOf n with
  | case1 n h => simp [Parser.decimal]
  | case2 n h ih =>
    rw [Parser.decimal_concat, ih]
    exact Nat.div_add_mod n 10

/-! ### The report and its reader -/

/-- The loop of `_ReportTabStops`; `none` where a column outside the table is looked up. -/
def reportLoop (tabStopColumns : List Bool) (width column : ℕ) (needSeparator : Bool) : Option (List UInt16) :=
  if column < width then
    match tabStopColumns[column]? with
    | none => none
    | some true => (reportLoop tabStopColumns width (column + 1) true).map fun rest =>
        (if needSeparator then [0x2f] else []) ++ (digitsOf (column + 1)).map digitChar ++ rest
    | some false => reportLoop tabStopColumns width (column + 1) needSeparator
  else some []
termination_by width - column

/-- The function that `_RestoreTabStops` returns, with what it captures. -/
structure TabReader where
  dispatch : TabDispatch
  width : ℕ
  column : ℕ

namespace TabDispatch

variable (d : TabDispatch)

/-- `DECTABSR`: the response begins with `2$u`. -/
def reportTabStops : Option (List UInt16 × TabDispatch) :=
  let d' := d.initTabStopsForWidth d.page.width
  (reportLoop d'.tabStopColumns d.page.width 0 false).map fun text => ([0x32, 0x24, 0x75] ++ text, d')

def restoreTabStops : TabReader :=
  let width := max d.page.width 132
  ⟨d.clearAllTabStops.initTabStopsForWidth width, width, 0⟩

end TabDispatch

namespace TabReader

/-- One character, and whether more is wanted; `none` where `at` throws. -/
def put (r : TabReader) (ch : UInt16) : Option (TabReader × Bool) :=
  if 0x30 ≤ ch ∧ ch ≤ 0x39 then
    some ({ r with column := min (r.column * 10 + (ch.toNat - 0x30)) 65535 }, ch != 0x1b)
  else if ch = 0x2f ∨ ch = 0x1b then
    -- Column 1 has no entry: it is always a tab stop.
    (if 1 < r.column ∧ r.column ≤ r.width then r.dispatch.setTabStop (r.column - 1) true else some r.dispatch).map
      fun dispatch => ({ r with dispatch := dispatch, column := 0 }, ch != 0x1b)
  else some (r, false)

/-- The characters up to the first one behind which nothing more is wanted. -/
def read : TabReader → List UInt16 → Option (TabReader × Bool)
  | r, [] => some (r, true)
  | r, ch :: rest => (r.put ch).bind fun (r, more) => if more then r.read rest else some (r, false)

lemma read_append (r : TabReader) (text rest : List UInt16) :
    r.read (text ++ rest) = (r.read text).bind fun (r, more) => if more then r.read rest else some (r, false) := by
  induction text generalizing r with
  | nil => rfl
  | cons ch text ih =>
    rw [List.cons_append, read, read]
    cases r.put ch with
    | none => rfl
    | some answer =>
      obtain ⟨r, more⟩ := answer
      cases more with
      | false => rfl
      | true => exact ih r

/-! ### What is read -/

/-- The stops so far, the table reaching over all columns that are restored. -/
structure Holds (r : TabReader) (e : TabDispatch) (stops : ℕ → Bool) : Prop where
  represents : r.dispatch.Represents stops
  width_le : r.width ≤ r.dispatch.tabStopColumns.length
  width : r.width = max e.page.width 132
  page : r.dispatch.page = e.page

/-- The stops with the one of the number that has been read. -/
def pending (r : TabReader) (stops : ℕ → Bool) (c : ℕ) : Bool :=
  stops c || decide (c + 1 = r.column ∧ 0 < c ∧ c < r.width)

variable {r : TabReader} {e : TabDispatch} {stops : ℕ → Bool}

lemma holds_restore (e : TabDispatch) : e.restoreTabStops.Holds e fun _ => false where
  represents := by
    have hclear : e.clearAllTabStops.Represents fun _ => false := fun c => by
      unfold TabDispatch.clearAllTabStops
      rw [List.getD_nil]
      rfl
    exact hclear.initTabStopsForWidth _
  width_le := by
    unfold TabDispatch.restoreTabStops
    dsimp only
    rw [TabDispatch.length_initTabStopsForWidth]
    exact le_max_right _ _
  width := rfl
  page := by
    unfold TabDispatch.restoreTabStops
    dsimp only
    rw [TabDispatch.initTabStopsForWidth_eq]
    rfl

/-- Digits are a number below the largest parameter value. -/
lemma read_digits (r : TabReader) (v : ℕ) (digits : List (Fin 10)) :
    ({ r with column := min v 65535 } : TabReader).read (digits.map digitChar) =
      some ({ r with column := min (digits.foldl (fun value (d : Fin 10) => 10 * value + d.val) v) 65535 }, true) := by
  induction digits generalizing v with
  | nil => rfl
  | cons d digits ih =>
    have hdigit : 0x30 ≤ digitChar d ∧ digitChar d ≤ 0x39 ∧ (digitChar d != 0x1b) = true ∧
        (digitChar d).toNat - 0x30 = d.val := by
      revert d
      decide
    have hmin : min (min v 65535 * 10 + d.val) 65535 = min (10 * v + d.val) 65535 := by omega
    have hput : ({ r with column := min v 65535 } : TabReader).put (digitChar d) =
        some ({ r with column := min (10 * v + d.val) 65535 }, true) := by
      unfold put
      rw [if_pos ⟨hdigit.1, hdigit.2.1⟩, hdigit.2.2.1, hdigit.2.2.2]
      dsimp only
      rw [hmin]
    rw [List.map_cons, read, hput]
    exact ih (10 * v + d.val)

/-- A separator and the end put the number into the table. -/
lemma Holds.put (h : r.Holds e stops) {ch : UInt16} (hch : ch = 0x2f ∨ ch = 0x1b) :
    ∃ r', r.put ch = some (r', ch != 0x1b) ∧ r'.column = 0 ∧ r'.Holds e (r.pending stops) := by
  have hdigit : ¬(0x30 ≤ ch ∧ ch ≤ 0x39) := by
    rcases hch with rfl | rfl <;> decide
  unfold TabReader.put
  rw [if_neg hdigit, if_pos hch]
  by_cases hcolumn : 1 < r.column ∧ r.column ≤ r.width
  · have hlength := h.width_le
    have hinside : 0 ≤ (r.column - 1 : ℤ) ∧ (r.column - 1 : ℤ) < r.dispatch.tabStopColumns.length := by omega
    obtain ⟨d', hd', hpage, hlength', hrepresents⟩ := h.represents.setTabStop hinside true
    rw [if_pos hcolumn, hd']
    refine ⟨_, rfl, rfl, ?_, hlength.trans_eq hlength'.symm, h.width, hpage.trans h.page⟩
    have hpending : Function.update stops (r.column - 1 : ℤ).toNat true = r.pending stops := by
      funext c
      unfold pending
      by_cases hc : c = (r.column - 1 : ℤ).toNat
      · rw [hc, Function.update_self, decide_eq_true (by omega), Bool.or_true]
      · rw [Function.update_of_ne hc, decide_eq_false (by omega), Bool.or_false]
    rw [← hpending]
    exact hrepresents
  · rw [if_neg hcolumn]
    refine ⟨_, rfl, rfl, ?_, h.width_le, h.width, h.page⟩
    have hpending : r.pending stops = stops := by
      funext c
      unfold pending
      rw [decide_eq_false (by omega), Bool.or_false]
    rw [hpending]
    exact h.represents

/-- No text makes the reader look up a column outside the table. -/
lemma Holds.read_isSome (h : r.Holds e stops) (text : List UInt16) : (r.read text).isSome = true := by
  induction text generalizing r stops with
  | nil => rfl
  | cons ch text ih =>
    have hput : ∃ r' stops' more, r.put ch = some (r', more) ∧ r'.Holds e stops' := by
      by_cases hdigit : 0x30 ≤ ch ∧ ch ≤ 0x39
      · exact ⟨_, stops, _, if_pos hdigit, h.represents, h.width_le, h.width, h.page⟩
      · by_cases hch : ch = 0x2f ∨ ch = 0x1b
        · obtain ⟨r', hput, -, hholds⟩ := h.put hch
          exact ⟨r', _, _, hput, hholds⟩
        · exact ⟨r, stops, _, (if_neg hdigit).trans (if_neg hch), h⟩
    obtain ⟨r', stops', more, hput, hholds⟩ := hput
    rw [read, hput]
    cases more with
    | false => rfl
    | true => exact ih hholds

/-- The columns from `column` on, read behind what has been read. -/
lemma Holds.read_reportLoop {tabStopColumns : List Bool} {width : ℕ} {reported : ℕ → Bool}
    (hreported : ∀ c < width, tabStopColumns[c]? = some (reported c)) (hwidth : width ≤ 65535) (column : ℕ)
    (needSeparator : Bool) (h : r.Holds e stops) (hcolumn : needSeparator = false → r.column = 0) :
    ∃ text r' stops', reportLoop tabStopColumns width column needSeparator = some text ∧
      r.read text = some (r', true) ∧ r'.Holds e stops' ∧ ∀ c, r'.pending stops' c =
        (r.pending stops c || (decide (column ≤ c ∧ c < width ∧ 0 < c ∧ c < r.width) && reported c)) := by
  fun_induction reportLoop tabStopColumns width column needSeparator generalizing r stops with
  | case1 column needSeparator hlt hnone =>
    rw [hreported column hlt] at hnone
    cases hnone
  | case2 column needSeparator hlt hstop ih =>
    rw [hreported column hlt, Option.some.injEq] at hstop
    -- The separator sets the stop of the number before.
    have hsep : ∃ r₁ stops₁, r.read (if needSeparator then [0x2f] else []) = some (r₁, true) ∧ r₁.column = 0 ∧
        r₁.Holds e stops₁ ∧ r.pending stops = stops₁ := by
      cases needSeparator with
      | true =>
        obtain ⟨r₁, hput, hzero, hholds⟩ := h.put (.inl rfl)
        refine ⟨r₁, _, ?_, hzero, hholds, rfl⟩
        show (r.put 0x2f).bind _ = _
        rw [hput]
        rfl
      | false =>
        refine ⟨r, stops, rfl, hcolumn rfl, h, ?_⟩
        funext c
        unfold pending
        rw [hcolumn rfl, decide_eq_false (by omega), Bool.or_false]
    obtain ⟨r₁, stops₁, hread₁, hzero₁, hholds₁, rfl⟩ := hsep
    have hnumber := read_digits r₁ 0 (digitsOf (column + 1))
    have hvalue : min (Parser.decimal (digitsOf (column + 1))) 65535 = column + 1 := by
      rw [decimal_digitsOf]
      omega
    have hsame : ({ r₁ with column := min 0 65535 } : TabReader) = r₁ := by
      rw [Nat.zero_min, ← hzero₁]
    rw [hsame] at hnumber
    change r₁.read _ = some ({ r₁ with column := min (Parser.decimal (digitsOf (column + 1))) 65535 }, true) at hnumber
    rw [hvalue] at hnumber
    have hholds₂ : ({ r₁ with column := column + 1 } : TabReader).Holds e (r.pending stops) :=
      ⟨hholds₁.represents, hholds₁.width_le, hholds₁.width, hholds₁.page⟩
    obtain ⟨text, r', stops', htext, hread, hholds, hpending⟩ := ih hholds₂ fun hfalse => nomatch hfalse
    refine ⟨_, r', stops', by rw [htext]; rfl, ?_, hholds, fun c => ?_⟩
    · rw [read_append, read_append, hread₁]
      dsimp only [Option.bind_some]
      rw [if_pos rfl, hnumber]
      exact hread
    · rw [hpending c]
      have hw : r₁.width = r.width := hholds₁.width.trans h.width.symm
      rw [show ({ r₁ with column := column + 1 } : TabReader).pending (r.pending stops) c =
        (r.pending stops c || decide (c + 1 = column + 1 ∧ 0 < c ∧ c < r₁.width)) from rfl, hw, Bool.or_assoc]
      congr 1
      by_cases hc : c = column
      · subst hc
        rw [hstop, Bool.and_true, Bool.and_true, decide_eq_false (p := c + 1 ≤ c ∧ _) (by omega), Bool.or_false]
        exact decide_eq_decide.mpr (by omega)
      · rw [decide_eq_false (p := c + 1 = column + 1 ∧ _) (by omega), Bool.false_or]
        exact congrArg (· && reported c) (decide_eq_decide.mpr (by omega))
  | case3 column needSeparator hlt hskip ih =>
    rw [hreported column hlt, Option.some.injEq] at hskip
    obtain ⟨text, r', stops', htext, hread, hholds, hpending⟩ := ih h hcolumn
    refine ⟨text, r', stops', htext, hread, hholds, fun c => ?_⟩
    rw [hpending c]
    congr 1
    by_cases hc : c = column
    · rw [hc, hskip, Bool.and_false, Bool.and_false]
    · exact congrArg (· && reported c) (decide_eq_decide.mpr (by omega))
  | case4 column needSeparator hlt =>
    refine ⟨[], r, stops, rfl, rfl, h, fun c => ?_⟩
    rw [decide_eq_false (by omega), Bool.false_and, Bool.or_false]

end TabReader

/-- The report shows the columns of the page alone. -/
lemma reportLoop_congr {tabStopColumns tabStopColumns' : List Bool} {width : ℕ}
    (h : ∀ c < width, tabStopColumns[c]? = tabStopColumns'[c]?) (column : ℕ) (needSeparator : Bool) :
    reportLoop tabStopColumns width column needSeparator = reportLoop tabStopColumns' width column needSeparator := by
  fun_induction reportLoop tabStopColumns width column needSeparator with
  | case1 column needSeparator hlt hnone =>
    rw [reportLoop, if_pos hlt, ← h column hlt, hnone]
  | case2 column needSeparator hlt hstop ih =>
    rw [ih]
    conv_rhs => rw [reportLoop, if_pos hlt, ← h column hlt, hstop]
  | case3 column needSeparator hlt hskip ih =>
    rw [ih]
    conv_rhs => rw [reportLoop, if_pos hlt, ← h column hlt, hskip]
  | case4 column needSeparator hlt => rw [reportLoop, if_neg hlt]

/-- **A report brings the tab stops to another terminal.**  No text leads the reader outside the table.  Behind the end
of the report of a page of at most 65535 columns, the stops are those that the other terminal has columns for, but for
the first column.  A terminal of the same width then reports the same if there was no stop in the first column. -/
theorem restoreTabStops_report {d e : TabDispatch} {stops : ℕ → Bool} (h : d.Represents stops)
    (hwidth : d.page.width ≤ 65535) :
    (∀ text, (e.restoreTabStops.read text).isSome = true) ∧
      ∃ text d' r r', d.reportTabStops = some ([0x32, 0x24, 0x75] ++ text, d') ∧ d'.Represents stops ∧
        e.restoreTabStops.read text = some (r, true) ∧ r.read [0x1b] = some (r', false) ∧
        (r'.dispatch.Represents fun c => decide (0 < c ∧ c < d.page.width ∧ c < max e.page.width 132) && stops c) ∧
        (stops 0 = false → e.page.width = d.page.width →
          r'.dispatch.reportTabStops.map Prod.fst = some ([0x32, 0x24, 0x75] ++ text)) := by
  have hgrown := h.initTabStopsForWidth d.page.width
  have hcolumns : ∀ c < d.page.width, (d.initTabStopsForWidth d.page.width).tabStopColumns[c]? = some (stops c) := by
    intro c hc
    apply hgrown.getElem?
    rw [TabDispatch.length_initTabStopsForWidth]
    omega
  obtain ⟨text, r, read, htext, hread, hholds, hpending⟩ :=
    (TabReader.holds_restore e).read_reportLoop hcolumns hwidth 0 false fun _ => rfl
  obtain ⟨r', hput, -, hholds'⟩ := hholds.put (.inr rfl)
  have hstops : r.pending read = fun c =>
      decide (0 < c ∧ c < d.page.width ∧ c < max e.page.width 132) && stops c := by
    funext c
    rw [hpending c, (TabReader.holds_restore e).width]
    unfold TabReader.pending
    rw [show e.restoreTabStops.column = 0 from rfl, decide_eq_false (p := c + 1 = 0 ∧ _) (by omega), Bool.or_false,
      Bool.false_or]
    exact congrArg (· && stops c) (decide_eq_decide.mpr (by omega))
  rw [hstops] at hholds'
  refine ⟨(TabReader.holds_restore e).read_isSome, text, _, r, r', ?_, hgrown, hread, ?_, hholds'.represents, ?_⟩
  · unfold TabDispatch.reportTabStops
    dsimp only
    rw [htext]
    rfl
  · rw [TabReader.read, hput]
    rfl
  · intro hfirst hsame
    have hpage : r'.dispatch.page.width = d.page.width := by rw [hholds'.page, hsame]
    have hgrown' := hholds'.represents.initTabStopsForWidth r'.dispatch.page.width
    rw [hpage] at hgrown'
    have hcolumns' : ∀ c < d.page.width, (d.initTabStopsForWidth d.page.width).tabStopColumns[c]? =
        (r'.dispatch.initTabStopsForWidth d.page.width).tabStopColumns[c]? := by
      intro c hc
      rw [hcolumns c hc, hgrown'.getElem? (by rw [TabDispatch.length_initTabStopsForWidth]; omega)]
      by_cases hzero : c = 0
      · rw [hzero, hfirst, Bool.and_false]
      · rw [decide_eq_true (by omega), Bool.true_and]
    unfold TabDispatch.reportTabStops
    dsimp only
    rw [hpage, ← reportLoop_congr hcolumns', htext]
    rfl

/-- A terminal with its default stops. -/
def defaultStops (width : ℕ) : TabDispatch :=
  ⟨[], true, ⟨0, 0, 0, 0⟩, ⟨0, 1, width⟩, fun _ => false, ⟨0, 0, none⟩⟩

theorem restoreTabStops_report_default : ∃ text r r',
    (defaultStops 20).reportTabStops.map Prod.fst = some ([0x32, 0x24, 0x75] ++ text) ∧
      (defaultStops 80).restoreTabStops.read text = some (r, true) ∧ r.read [0x1b] = some (r', false) ∧
      r'.dispatch.Represents fun c => decide (0 < c ∧ c < 20 ∧ c < max 80 132) && every8 c := by
  have hdefault : (defaultStops 20).Represents every8 := fun c => by
    show [].getD c (true && every8 c) = every8 c
    rw [List.getD_nil, Bool.true_and]
  obtain ⟨-, text, d', r, r', hreport, -, hread, hend, hstops, -⟩ :=
    @restoreTabStops_report _ (defaultStops 80) _ hdefault (by decide)
  exact ⟨text, r, r', by rw [hreport]; rfl, hread, hend, hstops⟩

end VT7.Adapter
