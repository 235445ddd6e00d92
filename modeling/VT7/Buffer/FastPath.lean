import VT7.Buffer.ClusterPath

/-!
# Where the fast path for ASCII agrees with the path over clusters

The row text, the offsets, the remaining text and the end of a write are the same on both paths, except where the
columns end inside a cluster that begins with ASCII, or an ASCII character joins the cell before it.
-/

namespace VT7.Buffer

open WriteHelper

variable {α : Type}

/-! ### The two paths -/

/-- The same row text and offsets, the same remaining text and the same end. -/
def SameWrite (a b : Except BufferError (Row α × RowWriteResult)) : Prop :=
  ∃ r res r' res', a = .ok (r, res) ∧ b = .ok (r', res') ∧
    r.chars.take r.charSize = r'.chars.take r'.charSize ∧ r.charOffsets = r'.charOffsets ∧
    res.text = res'.text ∧ res.columnEnd = res'.columnEnd

/-- An ASCII character at the front of the text joins the cell before it. -/
def JoinsAscii (cwd : Clustering) (gs : List Glyph) (x : ℕ) (chars : List UInt16) (room : ℕ) : Prop :=
  0 < asciiLength chars room ∧ 0 < x ∧ 0 < (cwd.join (charsPrev gs x) chars).1

section Agreement

variable {r : Row α} {cwd : Clustering} {gs : List Glyph} {x limit : ℕ} {chars : List UInt16}

/-- One glyph ends at a column, or a space in the place of one. -/
lemma lead_split (hpos : 0 < x) (hx : x ≤ cols gs) : ∃ p, lead gs x = upTo (x - 1) gs ++ [p] := by
  have hle := cols_upTo_le (x - 1) gs
  rcases upTo_spec (x - 1) gs with hall | ⟨g, rest, hsplit, hover⟩
  · rw [hall] at hle
    omega
  · have hwidth := g.width_le
    by_cases hend : cols (upTo (x - 1) gs) + g.width = x
    · have hprefix : upTo (x - 1) gs ++ [g] <+: gs := ⟨rest, by rw [List.append_assoc]; exact hsplit.symm⟩
      have hcols : cols (upTo (x - 1) gs ++ [g]) = x := by
        rw [cols_append]
        exact hend
      have hup := upTo_cols_of_isPrefix hprefix
      rw [hcols] at hup
      refine ⟨g, ?_⟩
      rw [lead, hup, hcols, Nat.sub_self]
      exact List.append_nil _
    · have hcut : x - cols (upTo x gs) ≠ 0 := by
        intro hzero
        have hfull : cols (upTo x gs) = x := by
          have hle' := cols_upTo_le x gs
          omega
        have hprefix : upTo (x - 1) gs <+: upTo x gs := prefix_upTo (upTo_isPrefix _ _) (by omega)
        obtain ⟨tail, htail⟩ := hprefix
        obtain ⟨rest', hrest'⟩ := upTo_isPrefix x gs
        rw [← htail, List.append_assoc] at hrest'
        have hsame := List.append_cancel_left (hrest'.trans hsplit)
        have hcols := congrArg cols htail
        rw [cols_append, hfull] at hcols
        cases tail with
        | nil =>
          rw [cols_nil] at hcols
          omega
        | cons g' tail =>
          obtain rfl : g' = g := (List.cons_eq_cons.mp hsame).1
          rw [cols_cons] at hcols
          omega
      have hone := leading_le hx
      refine ⟨Glyph.blank, ?_⟩
      rw [lead, upTo_of_cut hcut hx, show x - cols (upTo x gs) = 1 by omega]
      rfl

/-- The glyphs behind the front of a text that begins with ASCII. -/
lemma textFront_lead (hn : 0 < asciiLength chars (limit - x)) :
    ∃ new, textFront cwd gs x limit chars = lead gs x ++ new := by
  unfold textFront
  split
  · rw [if_neg (by omega)]
    exact ⟨_, rfl⟩
  · exact ⟨_, rfl⟩

lemma unicodeFront_joined (hpos : 0 < x) (hlt : x < limit) (hjoin : 0 < (cwd.join (charsPrev gs x) chars).1) :
    ∃ new, unicodeFront cwd gs x limit chars = upTo (x - 1) gs ++ joined cwd gs x chars hjoin :: new := by
  have hle := cols_upTo_le (x - 1) gs
  have hwidth := (joined cwd gs x chars hjoin).width_le
  unfold unicodeFront
  rw [dif_pos hjoin, if_neg (by omega)]
  exact ⟨_, rfl⟩

lemma not_joinsAscii {k k' : ℕ} (hlt : x < limit) (hx : x ≤ cols gs)
    (hsame : closed gs (textFront cwd gs x limit chars) k = closed gs (unicodeFront cwd gs x limit chars) k') :
    ¬JoinsAscii cwd gs x chars (limit - x) := by
  rintro ⟨hn, hpos, hjoin⟩
  obtain ⟨p, hp⟩ := lead_split hpos hx
  obtain ⟨new, hnew⟩ := @textFront_lead cwd gs x limit chars hn
  obtain ⟨new', hnew'⟩ := unicodeFront_joined hpos hlt hjoin
  rw [closed, closed, hnew, hnew', hp] at hsame
  simp only [List.append_assoc, List.cons_append, List.nil_append] at hsame
  have hglyph : p = joined cwd gs x chars hjoin := (List.cons_eq_cons.mp (List.append_cancel_left hsame)).1
  have htext : (joined cwd gs x chars hjoin).text =
      p.text ++ chars.take (cwd.join (charsPrev gs x) chars).1 := by
    show (textOf (lead gs x)).drop (units (upTo (x - 1) gs)) ++ _ = _
    rw [hp, textOf_append, ← length_textOf, List.drop_left, textOf_cons, textOf_nil, List.append_nil]
  rw [← hglyph] at htext
  have hlength := congrArg List.length htext
  have hle := cwd.join_le (charsPrev gs x) chars
  rw [List.length_append, List.length_take] at hlength
  omega

/-- **The fast path agrees with the path over clusters** exactly where the columns do not end inside a cluster that
begins with ASCII, and no ASCII character joins the cell before it. -/
theorem replaceText_agrees_iff (hr : r.Holds gs) (hm : cwd.MeasuresAscii) (hcount : r.columnCount < 0x8000)
    (state : RowWriteState) (hx : r.clampedColumnInclusive state.columnBegin = x)
    (hlimit : r.clampedColumnInclusive state.columnLimit = limit)
    (hshort : x < limit → units (textWritten cwd gs x limit state.text) < 0x8000)
    (hshort' : x < limit → units (closed gs (unicodeFront cwd gs x limit state.text)
      (textEnd gs (unicodeFront cwd gs x limit state.text) x limit state.text)) < 0x8000) :
    SameWrite (r.replaceText cwd state) (r.replaceTextByClusters cwd state) ↔
      ¬cwd.SplitsCluster state.text (limit - x) ∧ ¬JoinsAscii cwd gs x state.text (limit - x) := by
  have hn := asciiLength_le state.text (limit - x)
  by_cases hvalid : x < limit ∧ 0 < state.text.length
  · obtain ⟨hlt, hchars⟩ := hvalid
    have hlimitLe : limit ≤ r.columnCount := hlimit ▸ Nat.min_le_right _ _
    have hxcols : x ≤ cols gs := by
      rw [hr.columns]
      omega
    have hne : state.text ≠ [] := List.length_pos_iff.mp hchars
    obtain ⟨it', hl'⟩ := byClusters_laidOut hr hx hlimit hlt hchars hcount (units_of_closed (hshort' hlt))
    obtain ⟨row, res, hok, hholds, -, htext, hend, -, -⟩ :=
      replaceText_result hr cwd state hx hlimit hlt hchars hcount (hshort hlt)
    obtain ⟨row', res', hok', hholds', -, htext', hend', -, -⟩ :=
      writeResult_spec hr hx hlimit hlt hl' (unicodeEnd_reach cwd hlt hchars) (hshort' hlt)
    rw [replaceTextByClusters_eq (create_isValid (by rwa [hx, hlimit]) hchars)]
    refine ⟨fun hsame => ?_, fun hclean => ?_⟩
    · obtain ⟨r₁, res₁, r₂, res₂, h₁, h₂, hchars', hoffsets, hrest, -⟩ := hsame
      obtain ⟨rfl, rfl⟩ := Prod.mk.inj (Except.ok.inj (hok.symm.trans h₁))
      obtain ⟨rfl, rfl⟩ := Prod.mk.inj (Except.ok.inj (hok'.symm.trans h₂))
      have hjoins := not_joinsAscii hlt hxcols (hholds.unique hholds' hoffsets hchars')
      refine ⟨fun hsplits => ?_, hjoins⟩
      obtain ⟨hroom, hmore, hall, -⟩ := id hsplits
      have hjoin : x = 0 ∨ (cwd.join (charsPrev gs x) state.text).1 = 0 := by
        unfold JoinsAscii at hjoins
        omega
      rw [htext, htext', textFront_whole hall, unicodeFront_clusters hm hne hjoin, units_append, units_append,
        Nat.add_sub_cancel_left, Nat.add_sub_cancel_left, units_narrows, List.length_take] at hrest
      have hlength := congrArg List.length hrest
      have htaken := @Clustering.units_glyphs_le cwd state.text 0 0 (limit - x) state.text.length
      change units (cwd.clusters state.text (limit - x)) ≤ _ at htaken
      rw [List.length_drop, List.length_drop] at hlength
      exact Clustering.units_clusters_ne hm hsplits (by omega)
    · obtain ⟨hwhole, hjoins⟩ := hclean
      have hsame : textFront cwd gs x limit state.text = unicodeFront cwd gs x limit state.text := by
        by_cases hzero : asciiLength state.text (limit - x) = 0
        · unfold textFront
          rw [hzero, if_pos (by omega), if_pos rfl]
        · have hjoin : x = 0 ∨ (cwd.join (charsPrev gs x) state.text).1 = 0 := by
            unfold JoinsAscii at hjoins
            omega
          rw [textFront_clusters hm (by omega) hwhole, unicodeFront_clusters hm hne hjoin]
      rw [textWritten, hsame] at hholds
      rw [hsame] at htext hend
      refine ⟨row, res, row', res', hok, hok', ?_, hholds.offsets.trans hholds'.offsets.symm, htext.trans htext'.symm,
        hend.trans hend'.symm⟩
      rw [hholds.charSize, hholds'.charSize, hholds.text, hholds'.text]
  · have hinvalid : (create r state.columnBegin state.columnLimit state.text).isValid = false := by
      rw [List.length_pos_iff] at hvalid
      exact create_invalid (by rwa [hx, hlimit])
    refine iff_of_true ?_ ⟨?_, ?_⟩
    · unfold Row.replaceText Row.replaceTextByClusters
      dsimp only
      rw [hinvalid]
      exact ⟨_, _, _, _, rfl, rfl, rfl, rfl, rfl, rfl⟩
    · rintro ⟨hroom, hmore, -, -⟩
      omega
    · rintro ⟨hfirst, -, -⟩
      omega

end Agreement

/-- A letter and its mark with room for both. -/
theorem replaceText_agrees_iff_room :
    SameWrite ((Row.create 2 ()).replaceText combining { text := [0x61, 0x301] })
        ((Row.create 2 ()).replaceTextByClusters combining { text := [0x61, 0x301] }) ↔
      ¬combining.SplitsCluster [0x61, 0x301] (2 - 0) ∧ ¬JoinsAscii combining (blanks 2) 0 [0x61, 0x301] (2 - 0) :=
  replaceText_agrees_iff (create_holds (by decide) ()) combining_measuresAscii (by decide) { text := [0x61, 0x301] } rfl
    rfl (fun _ => by decide) (fun _ => by decide)

/-- The mark does not come into the last column with its letter. -/
theorem replaceText_splits : ¬SameWrite ((Row.create 1 ()).replaceText combining { text := [0x61, 0x301] })
    ((Row.create 1 ()).replaceTextByClusters combining { text := [0x61, 0x301] }) := by
  rintro ⟨r, res, r', res', h, h', -, -, htext, -⟩
  have hfast : ((Row.create 1 ()).replaceText combining { text := [0x61, 0x301] }).toOption.map (·.2.text) =
      some [0x301] := by decide
  have hslow : ((Row.create 1 ()).replaceTextByClusters combining { text := [0x61, 0x301] }).toOption.map (·.2.text) =
      some [] := by decide
  rw [h] at hfast
  rw [h'] at hslow
  have hrest : res.text = [0x301] := Option.some.inj hfast
  have hrest' : res'.text = [] := Option.some.inj hslow
  rw [hrest, hrest'] at htext
  exact nomatch htext

end VT7.Buffer
