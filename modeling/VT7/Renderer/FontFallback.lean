import Mathlib.Algebra.BigOperators.Group.List.Basic
import Mathlib.Algebra.GroupWithZero.Nat
import Mathlib.Data.List.Basic
import VT7.Lib.Tiling

/-!
# Font fallback

`FontFallback::Map` says which face each part of a text is drawn with.  The layout of DirectWrite picks a face for each
range of the text; clusters of the text, which are known from the columns of its units, are never divided, and a symbol
without a glyph goes to a private face.  Answers are cached until the settings change.

DirectWrite is a parameter: its layout is a fixed function of the format and the text.
-/

namespace VT7.Renderer

open VT7.Lib.Tiling

structure FaceMapping (Face : Type) where
  start : ℕ
  /-- `end`. -/
  stop : ℕ
  face : Face
deriving DecidableEq

/-- What a layout calls `DrawGlyphRun` with; the face is missing where the run has none or not the right interface. -/
structure DrawnRun (Face : Type) where
  textPosition : ℕ
  stringLength : ℕ
  face : Option Face
  isSideways : Bool

/-- The functions of DirectWrite; a call that fails has no result. -/
structure DirectWrite (Face Format Settings : Type) where
  createTextFormat : Settings → ℕ → Option Format
  /-- `CreateTextLayout` and `Draw`: the runs that are drawn. -/
  draw : Format → List UInt16 → Option (List (DrawnRun Face))
  /-- `GetGlyphIndicesW`, of one scalar. -/
  getGlyphIndex : Face → ℕ → Option ℕ

/-- Some face cannot be asked for a glyph. -/
def DirectWrite.LookupFails {Face Format Settings : Type} (dwrite : DirectWrite Face Format Settings) : Prop :=
  ∃ face scalar, dwrite.getGlyphIndex face scalar = none

/-- What stops `Map`. -/
inductive MapError
  | invalidArgument
  | failed
  | unexpected
  /-- An element behind the end of an array has been read. -/
  | outOfRange
  /-- The given number of iterations was not enough. -/
  | unfinished
deriving DecidableEq

structure Cached (Face : Type) where
  text : List UInt16
  columns : List UInt16
  attributes : ℕ
  mappings : List (FaceMapping Face)

structure FontFallback (Face Format : Type) where
  formats : List (Option Format)
  privateFaces : List (List Face)
  cache : List (Cached Face)
  cachedUnits : ℕ

def uint32Max : ℕ := 0xffffffff

variable {Face Format Settings : Type}

/-! ### The ranges of a layout -/

/-- `DrawGlyphRun` of the capture. -/
def DrawnRun.capture (run : DrawnRun Face) : Option (FaceMapping Face) :=
  match run.face with
  | none => none
  | some face =>
    if run.isSideways ∨ run.stringLength = 0 ∨ uint32Max < run.textPosition + run.stringLength then none
    else some ⟨run.textPosition, run.textPosition + run.stringLength, face⟩

/-- The check that the ranges cover the text. -/
def covers (size : ℕ) : ℕ → List (FaceMapping Face) → Bool
  | covered, [] => covered = size
  | covered, r :: ranges => r.start = covered && r.stop ≤ size && covers size r.stop ranges

/-- The ranges of a text.  A call that fails ends the drawing. -/
def layoutRanges (dwrite : DirectWrite Face Format Settings) (format : Format) (text : List UInt16) :
    Except MapError (List (FaceMapping Face)) :=
  match (dwrite.draw format text).bind fun runs => runs.mapM DrawnRun.capture with
  | none => .error .failed
  | some ranges =>
    let ranges := ranges.mergeSort fun a b => a.start ≤ b.start
    if covers text.length 0 ranges then .ok ranges else .error .unexpected

/-! ### Clusters and their faces -/

/-- `Scalar`: the one scalar of a text, or 0. -/
def scalar : List UInt16 → ℕ
  | [c] => if c < 0xd800 ∨ 0xdfff < c then c.toNat else 0
  | [high, low] =>
    if 0xd800 ≤ high ∧ high ≤ 0xdbff ∧ 0xdc00 ≤ low ∧ low ≤ 0xdfff then
      0x10000 + ((high.toNat - 0xd800) <<< 10) + low.toNat - 0xdc00
    else 0
  | _ => 0

def isSymbol (scalar : ℕ) : Bool := (0x2190 ≤ scalar && scalar ≤ 0x2bff) || (0x1f000 ≤ scalar && scalar ≤ 0x1faff)

/-- The end of the cluster that begins at `begin`: the units behind it with the same column. -/
def clusterEnd (text columns : List UInt16) (start : ℕ) : ℕ :=
  start + 1 + (((columns.take text.length).drop (start + 1)).takeWhile fun c => c = columns.getD start 0).length

/-- The first private face with a glyph, else the face of the layout. -/
def privateFace (dwrite : DirectWrite Face Format Settings) (scalar : ℕ) (face : Face) :
    List Face → Except MapError Face
  | [] => .ok face
  | candidate :: rest =>
    match dwrite.getGlyphIndex candidate scalar with
    | none => .error .failed
    | some 0 => privateFace dwrite scalar face rest
    | some _ => .ok candidate

/-- The face of a cluster. -/
def chooseFace (dwrite : DirectWrite Face Format Settings) (privateFaces : List Face) (cluster : List UInt16)
    (face : Face) : Except MapError Face :=
  if isSymbol (scalar cluster) then
    match dwrite.getGlyphIndex face (scalar cluster) with
    | none => .error .failed
    | some 0 => privateFace dwrite (scalar cluster) face privateFaces
    | some _ => .ok face
  else .ok face

section Compute

variable [DecidableEq Face]

/-- A cluster goes on with the last mapping, or begins one. -/
def appendCluster (result : List (FaceMapping Face)) (start stop : ℕ) (face : Face) : List (FaceMapping Face) :=
  match result.getLast? with
  | some last =>
    if last.face = face then result.dropLast ++ [{ last with stop }] else result ++ [⟨start, stop, face⟩]
  | none => [⟨start, stop, face⟩]

/-- The loop over the clusters, from `begin` on.  `ranges` are those from `rangeIndex` on. -/
def mapClusters (dwrite : DirectWrite Face Format Settings) (privateFaces : List Face) (text columns : List UInt16) :
    ℕ → ℕ → List (FaceMapping Face) → List (FaceMapping Face) → Except MapError (List (FaceMapping Face))
  | 0, _, _, _ => .error .unfinished
  | iterations + 1, start, ranges, result =>
    if start < text.length then
      let stop := clusterEnd text columns start
      match ranges.dropWhile fun r => r.stop ≤ start with
      | [] => .error .outOfRange
      | range :: ranges => do
        let face ← chooseFace dwrite privateFaces ((text.drop start).take (stop - start)) range.face
        mapClusters dwrite privateFaces text columns iterations stop (range :: ranges)
          (appendCluster result start stop face)
    else .ok result

/-- `Map` without its cache. -/
def compute (dwrite : DirectWrite Face Format Settings) (privateFaces : List Face) (format : Format)
    (text columns : List UInt16) : Except MapError (List (FaceMapping Face)) := do
  let ranges ← layoutRanges dwrite format text
  mapClusters dwrite privateFaces text columns (text.length + 1) 0 ranges []

namespace FontFallback

variable (f : FontFallback Face Format) (dwrite : DirectWrite Face Format Settings)

/-- The arguments that `Map` takes. -/
def Admits (text columns : List UInt16) (attributes : ℕ) : Prop :=
  text ≠ [] ∧ text.length ≤ 65535 ∧ columns.length = text.length + 1 ∧ (f.formats[attributes]?.join).isSome ∧
    columns.Pairwise (· ≤ ·)

instance (text columns : List UInt16) (attributes : ℕ) : Decidable (f.Admits text columns attributes) :=
  inferInstanceAs (Decidable (_ ∧ _))

/-- What `Map` computes where nothing is cached. -/
def fresh (text columns : List UInt16) (attributes : ℕ) : Except MapError (List (FaceMapping Face)) :=
  match f.formats[attributes]?.join with
  | none => .error .invalidArgument
  | some format => compute dwrite (f.privateFaces.getD attributes []) format text columns

/-- An answer is remembered. -/
def remember (text columns : List UInt16) (attributes : ℕ) (mappings : List (FaceMapping Face)) :
    FontFallback Face Format :=
  let f := if 32 ≤ f.cache.length ∨ 32768 < f.cachedUnits + text.length then { f with cache := [], cachedUnits := 0 }
    else f
  if text.length ≤ 32768 then
    { f with
      cache := f.cache ++ [⟨text, columns, attributes, mappings⟩]
      cachedUnits := f.cachedUnits + text.length }
  else f

/-- `Map`. -/
def map (text columns : List UInt16) (attributes : ℕ) :
    Except MapError (FontFallback Face Format × List (FaceMapping Face)) :=
  if f.Admits text columns attributes then
    match f.cache.find? fun c => c.attributes = attributes && c.text = text && c.columns = columns with
    | some c => .ok (f, c.mappings)
    | none => do
      let mappings ← f.fresh dwrite text columns attributes
      .ok (f.remember text columns attributes mappings, mappings)
  else .error .invalidArgument

/-- `Configure`, which changes nothing when it fails. -/
def configure (settings : Settings) : FontFallback Face Format :=
  match (List.range 4).mapM (dwrite.createTextFormat settings) with
  | none => f
  | some formats => { f with formats := formats.map some, cache := [], cachedUnits := 0 }

/-- The constructor, with the private faces that it has loaded. -/
def create (privateFaces : List (List Face)) : FontFallback Face Format := ⟨List.replicate 4 none, privateFaces, [], 0⟩

end FontFallback

/-! ### What a mapping is -/

/-- Clusters change where the column does. -/
def Boundary (columns : List UInt16) (position : ℕ) : Prop :=
  0 < position → columns[position - 1]? ≠ columns[position]?

/-- The ranges of the faces of a text up to a position: they tile it and divide it at clusters only, and neighbours
differ. -/
structure Partitions (columns : List UInt16) (position : ℕ) (mappings : List (FaceMapping Face)) : Prop where
  tiles : Tiles FaceMapping.start FaceMapping.stop 0 mappings position
  boundaries : ∀ m ∈ mappings, Boundary columns m.start
  faces : mappings.IsChain fun m m' => m.face ≠ m'.face

section Clusters

variable {dwrite : DirectWrite Face Format Settings} {privateFaces : List Face} {text columns : List UInt16}
variable {start : ℕ} {result ranges : List (FaceMapping Face)}

omit [DecidableEq Face] in
/-- The elements in front satisfy the test, the one behind them does not. -/
lemma takeWhile_stops {β : Type} (p : β → Bool) (l : List β) :
    (∀ i < (l.takeWhile p).length, ∃ x, l[i]? = some x ∧ p x = true) ∧
      ∀ x, l[(l.takeWhile p).length]? = some x → p x = false := by
  induction l with
  | nil => exact ⟨fun i hi => absurd hi (Nat.not_lt_zero i), nofun⟩
  | cons a l ih =>
    by_cases ha : p a = true
    · rw [List.takeWhile_cons_of_pos ha, List.length_cons]
      refine ⟨fun i hi => ?_, fun x hx => ih.2 x hx⟩
      cases i with
      | zero => exact ⟨a, rfl, ha⟩
      | succ i => exact ih.1 i (by omega)
    · rw [List.takeWhile_cons_of_neg ha]
      refine ⟨fun i hi => absurd hi (Nat.not_lt_zero i), fun x hx => ?_⟩
      obtain rfl : a = x := Option.some.inj hx
      exact Bool.eq_false_iff.mpr ha

omit [DecidableEq Face] in
/-- **A cluster** is not empty, and behind it the column changes. -/
lemma clusterEnd_spec (hcolumns : columns.length = text.length + 1) (hstart : start < text.length) :
    start < clusterEnd text columns start ∧ clusterEnd text columns start ≤ text.length ∧
      (clusterEnd text columns start < text.length → Boundary columns (clusterEnd text columns start)) := by
  obtain ⟨hfront, hbehind⟩ := takeWhile_stops (fun c => decide (c = columns.getD start 0))
    ((columns.take text.length).drop (start + 1))
  have hle := (List.takeWhile_prefix (l := (columns.take text.length).drop (start + 1))
    fun c => decide (c = columns.getD start 0)).length_le
  rw [List.length_drop, List.length_take] at hle
  have hread : ∀ j, start + 1 + j < text.length →
      ((columns.take text.length).drop (start + 1))[j]? = columns[start + 1 + j]? := by
    intro j hj
    rw [List.getElem?_drop, List.getElem?_take_of_lt hj]
  unfold clusterEnd
  generalize ((((columns.take text.length).drop (start + 1)).takeWhile
    fun c => decide (c = columns.getD start 0)).length) = k at *
  refine ⟨by omega, by omega, fun hlt _ => ?_⟩
  have hfirst : columns[start]? = some (columns.getD start 0) := by
    rw [List.getD_eq_getElem?_getD, List.getElem?_eq_getElem (by omega)]
    rfl
  have hlast : columns[start + 1 + k - 1]? = some (columns.getD start 0) := by
    cases k with
    | zero => exact hfirst
    | succ k =>
      obtain ⟨y, hy, hsame⟩ := hfront k (Nat.lt_succ_self k)
      rw [hread k (by omega), of_decide_eq_true hsame] at hy
      rw [show start + 1 + (k + 1) - 1 = start + 1 + k by omega]
      exact hy
  rw [hlast]
  intro hsame
  have hother := hbehind _ ((hread k hlt).trans hsame.symm)
  exact absurd rfl (of_decide_eq_false hother)

lemma Partitions.append (h : Partitions columns start result) (hboundary : Boundary columns start) {stop : ℕ}
    (hlt : start < stop) (face : Face) : Partitions columns stop (appendCluster result start stop face) := by
  obtain ⟨htiles, hboundaries, hfaces⟩ := h
  rcases List.eq_nil_or_concat' result with rfl | ⟨init, last, rfl⟩
  · obtain rfl : 0 = start := htiles
    exact ⟨⟨rfl, hlt, rfl⟩, fun m hm => by rw [List.mem_singleton.mp hm]; exact hboundary, .singleton _⟩
  unfold appendCluster
  rw [List.getLast?_concat]
  dsimp only
  rw [tiles_concat] at htiles
  obtain ⟨hinit, hspan, rfl⟩ := htiles
  split
  · next hsame =>
    rw [List.dropLast_concat]
    refine ⟨tiles_concat.mpr ⟨hinit, hspan.trans hlt, rfl⟩, fun m hm => ?_, ?_⟩
    · rcases List.mem_append.mp hm with hm | hm
      · exact hboundaries m (List.mem_append_left _ hm)
      · rw [List.mem_singleton.mp hm]
        exact hboundaries last (List.mem_append_right _ (List.mem_singleton_self last))
    · rw [List.isChain_append] at hfaces ⊢
      refine ⟨hfaces.1, .singleton _, fun x hx y hy => ?_⟩
      obtain rfl : { last with stop } = y := Option.some.inj hy
      exact hfaces.2.2 x hx last rfl
  · next hother =>
    refine ⟨tiles_concat.mpr ⟨tiles_concat.mpr ⟨hinit, hspan, rfl⟩, hlt, rfl⟩, fun m hm => ?_, ?_⟩
    · rcases List.mem_append.mp hm with hm | hm
      · exact hboundaries m hm
      · rw [List.mem_singleton.mp hm]
        exact hboundary
    · rw [List.isChain_append]
      refine ⟨hfaces, .singleton _, fun x hx y hy => ?_⟩
      rw [List.getLast?_concat] at hx
      obtain rfl : last = x := Option.some.inj hx
      obtain rfl : (⟨last.stop, stop, face⟩ : FaceMapping Face) = y := Option.some.inj hy
      exact hother

omit [DecidableEq Face] in
lemma privateFace_error {s : ℕ} {face : Face} {faces : List Face} {e : MapError}
    (h : privateFace dwrite s face faces = .error e) : e = .failed ∧ dwrite.LookupFails := by
  induction faces with
  | nil => cases h
  | cons candidate rest ih =>
    unfold privateFace at h
    split at h
    · next hglyph =>
      cases h
      exact ⟨rfl, candidate, s, hglyph⟩
    · exact ih h
    · cases h

omit [DecidableEq Face] in
lemma chooseFace_error {cluster : List UInt16} {face : Face} {e : MapError}
    (h : chooseFace dwrite privateFaces cluster face = .error e) : e = .failed ∧ dwrite.LookupFails := by
  unfold chooseFace at h
  split at h
  · split at h
    · next hglyph =>
      cases h
      exact ⟨rfl, face, _, hglyph⟩
    · exact privateFace_error h
    · cases h
  · cases h

/-- **The loop over the clusters.** -/
lemma mapClusters_spec (hcolumns : columns.length = text.length + 1) {iterations a : ℕ} (hle : start ≤ text.length)
    (hmany : text.length - start < iterations) (hboundary : start < text.length → Boundary columns start)
    (hranges : Tiles FaceMapping.start FaceMapping.stop a ranges text.length) (ha : a ≤ start)
    (hresult : Partitions columns start result) :
    (∃ mappings, mapClusters dwrite privateFaces text columns iterations start ranges result = .ok mappings ∧
        Partitions columns text.length mappings) ∨
      mapClusters dwrite privateFaces text columns iterations start ranges result = .error .failed ∧
        dwrite.LookupFails := by
  induction iterations generalizing start a ranges result with
  | zero => omega
  | succ iterations ih =>
    unfold mapClusters
    by_cases hmore : start < text.length
    · rw [if_pos hmore]
      obtain ⟨hlt, hend, hnext⟩ := clusterEnd_spec hcolumns hmore
      obtain ⟨range, rest, hrange, hbefore, -, htiles⟩ := hranges.dropWhile ha hmore
      dsimp only
      rw [hrange]
      dsimp only
      cases hface : chooseFace dwrite privateFaces ((text.drop start).take (clusterEnd text columns start - start))
          range.face with
      | error e =>
        obtain ⟨rfl, hlookup⟩ := chooseFace_error hface
        exact .inr ⟨rfl, hlookup⟩
      | ok face =>
        exact ih hend (by omega) hnext htiles (hbefore.trans hlt.le) (hresult.append (hboundary hmore) hlt face)
    · rw [if_neg hmore]
      obtain rfl : start = text.length := by omega
      exact .inl ⟨result, rfl, hresult⟩

/-! ### The layout -/

omit [DecidableEq Face] in
lemma covers_tiles {covered : ℕ} (h : covers text.length covered ranges = true)
    (hspans : ∀ r ∈ ranges, r.start < r.stop) :
    Tiles FaceMapping.start FaceMapping.stop covered ranges text.length := by
  induction ranges generalizing covered with
  | nil =>
    unfold covers at h
    rw [decide_eq_true_eq] at h
    exact h
  | cons r ranges ih =>
    unfold covers at h
    rw [Bool.and_eq_true, Bool.and_eq_true, decide_eq_true_eq] at h
    exact ⟨h.1.1, hspans r List.mem_cons_self, ih h.2 fun r' hr' => hspans r' (List.mem_cons_of_mem _ hr')⟩

omit [DecidableEq Face] in
lemma DrawnRun.capture_spans {run : DrawnRun Face} {r : FaceMapping Face} (h : run.capture = some r) :
    r.start < r.stop := by
  unfold capture at h
  split at h
  · cases h
  · split at h
    · cases h
    · next hvalid =>
      obtain rfl := Option.some.inj h
      dsimp only
      omega

omit [DecidableEq Face] in
lemma captures_span {runs : List (DrawnRun Face)} (h : runs.mapM DrawnRun.capture = some ranges) :
    ∀ r ∈ ranges, r.start < r.stop := by
  induction runs generalizing ranges with
  | nil =>
    rw [List.mapM_nil] at h
    obtain rfl : [] = ranges := Option.some.inj h
    exact List.forall_mem_nil _
  | cons run runs ih =>
    rw [List.mapM_cons] at h
    obtain ⟨r, hr, h⟩ := Option.bind_eq_some_iff.mp h
    obtain ⟨rest, hrest, h⟩ := Option.bind_eq_some_iff.mp h
    obtain rfl : r :: rest = ranges := Option.some.inj h
    exact List.forall_mem_cons.mpr ⟨DrawnRun.capture_spans hr, ih hrest⟩

omit [DecidableEq Face] in
/-- **The ranges of a layout** tile the text. -/
lemma layoutRanges_tiles {format : Format} (h : layoutRanges dwrite format text = .ok ranges) :
    Tiles FaceMapping.start FaceMapping.stop 0 ranges text.length := by
  unfold layoutRanges at h
  split at h
  · cases h
  · next captured hcaptured =>
    obtain ⟨runs, -, hcaptured⟩ := Option.bind_eq_some_iff.mp hcaptured
    dsimp only at h
    split at h
    · next hcovers =>
      cases h
      exact covers_tiles hcovers fun r hr => captures_span hcaptured r (List.mem_mergeSort.mp hr)
    · cases h

/-- **What is computed** partitions the text. -/
theorem compute_spec (dwrite : DirectWrite Face Format Settings) (privateFaces : List Face) (format : Format)
    (hcolumns : columns.length = text.length + 1) :
    (∃ mappings, compute dwrite privateFaces format text columns = .ok mappings ∧
        Partitions columns text.length mappings) ∨
      (∃ e, compute dwrite privateFaces format text columns = .error e ∧ layoutRanges dwrite format text = .error e) ∨
      compute dwrite privateFaces format text columns = .error .failed ∧ dwrite.LookupFails := by
  unfold compute
  cases hlayout : layoutRanges dwrite format text with
  | error e => exact .inr (.inl ⟨e, rfl, rfl⟩)
  | ok ranges =>
    have hnone : Partitions columns 0 ([] : List (FaceMapping Face)) :=
      ⟨rfl, List.forall_mem_nil _, .nil⟩
    rcases mapClusters_spec hcolumns (Nat.zero_le _) (Nat.lt_succ_of_le (Nat.sub_le _ _))
      (fun _ h => absurd h (Nat.lt_irrefl 0)) (layoutRanges_tiles hlayout) (Nat.le_refl 0) hnone with h | h
    · exact .inl h
    · exact .inr (.inr h)

end Clusters

/-! ### The cache -/

namespace FontFallback

variable {f : FontFallback Face Format} {dwrite : DirectWrite Face Format Settings} {text columns : List UInt16}
variable {attributes : ℕ} {mappings : List (FaceMapping Face)}

/-- The bounds of the cache, and the count of the units in it. -/
structure CacheBounded (f : FontFallback Face Format) : Prop where
  entries : f.cache.length ≤ 32
  units : f.cachedUnits = (f.cache.map fun c => c.text.length).sum
  bounded : f.cachedUnits ≤ 32768

/-- Whatever is cached would be computed again. -/
structure Inv (dwrite : DirectWrite Face Format Settings) (f : FontFallback Face Format) : Prop where
  cache : f.CacheBounded
  recomputed : ∀ c ∈ f.cache, f.fresh dwrite c.text c.columns c.attributes = .ok c.mappings

omit [DecidableEq Face] in
lemma CacheBounded.remember (h : f.CacheBounded) (text columns : List UInt16) (attributes : ℕ)
    (mappings : List (FaceMapping Face)) : (f.remember text columns attributes mappings).CacheBounded := by
  obtain ⟨hentries, hunits, hbounded⟩ := h
  unfold FontFallback.remember
  by_cases hfull : 32 ≤ f.cache.length ∨ 32768 < f.cachedUnits + text.length
  · rw [if_pos hfull]
    by_cases hfits : text.length ≤ 32768
    · rw [if_pos hfits]
      exact ⟨by simp, by simp, by simpa using hfits⟩
    · rw [if_neg hfits]
      exact ⟨by simp, rfl, by simp⟩
  · rw [if_neg hfull, if_pos (by omega)]
    refine ⟨?_, ?_, ?_⟩
    · rw [List.length_append, List.length_singleton]
      omega
    · rw [List.map_append, List.sum_append, ← hunits]
      rfl
    · dsimp only
      omega

lemma Inv.remember (h : f.Inv dwrite) (hfresh : f.fresh dwrite text columns attributes = .ok mappings) :
    (f.remember text columns attributes mappings).Inv dwrite := by
  refine ⟨h.cache.remember text columns attributes mappings, fun c hc => ?_⟩
  have hsame : (f.remember text columns attributes mappings).fresh dwrite c.text c.columns c.attributes =
      f.fresh dwrite c.text c.columns c.attributes := by
    unfold FontFallback.remember
    dsimp only
    split <;> split <;> rfl
  have hcached : c ∈ f.cache ∨ c = ⟨text, columns, attributes, mappings⟩ := by
    unfold FontFallback.remember at hc
    dsimp only at hc
    split at hc <;> split at hc <;> simp_all
  rw [hsame]
  rcases hcached with hc | rfl
  · exact h.recomputed c hc
  · exact hfresh

/-- **`Map` answers what would be computed**, and keeps the invariant. -/
lemma Inv.map (h : f.Inv dwrite) (hadmits : f.Admits text columns attributes) :
    (∃ e, f.map dwrite text columns attributes = .error e ∧ f.fresh dwrite text columns attributes = .error e) ∨
      ∃ f' mappings, f.map dwrite text columns attributes = .ok (f', mappings) ∧
        f.fresh dwrite text columns attributes = .ok mappings ∧ f'.Inv dwrite := by
  unfold FontFallback.map
  rw [if_pos hadmits]
  cases hfind : f.cache.find? fun c => c.attributes = attributes && c.text = text && c.columns = columns with
  | some c =>
    have hkey := List.find?_some hfind
    have hcached := h.recomputed c (List.mem_of_find?_eq_some hfind)
    rw [Bool.and_eq_true, Bool.and_eq_true, decide_eq_true_eq, decide_eq_true_eq, decide_eq_true_eq] at hkey
    obtain ⟨⟨hattributes, htext⟩, hcolumns⟩ := hkey
    rw [hattributes, htext, hcolumns] at hcached
    exact .inr ⟨f, c.mappings, rfl, hcached, h⟩
  | none =>
    cases hfresh : f.fresh dwrite text columns attributes with
    | error e => exact .inl ⟨e, rfl, rfl⟩
    | ok mappings => exact .inr ⟨_, mappings, rfl, rfl, h.remember hfresh⟩

lemma Inv.configure (h : f.Inv dwrite) (settings : Settings) : (f.configure dwrite settings).Inv dwrite := by
  unfold FontFallback.configure
  split
  · exact h
  · exact ⟨⟨Nat.zero_le _, rfl, Nat.zero_le _⟩, List.forall_mem_nil _⟩

/-! ### Histories -/

/-- The calls of a renderer. -/
inductive Request (Settings : Type)
  | configure (settings : Settings)
  | map (text columns : List UInt16) (attributes : ℕ)

def step (dwrite : DirectWrite Face Format Settings) (f : FontFallback Face Format) :
    Request Settings → FontFallback Face Format
  | .configure settings => f.configure dwrite settings
  | .map text columns attributes =>
    match f.map dwrite text columns attributes with
    | .ok (f', _) => f'
    | .error _ => f

def run (dwrite : DirectWrite Face Format Settings) (privateFaces : List (List Face))
    (history : List (Request Settings)) : FontFallback Face Format :=
  history.foldl (step dwrite) (create privateFaces)

lemma Inv.step (h : f.Inv dwrite) (request : Request Settings) : (step dwrite f request).Inv dwrite := by
  cases request with
  | configure settings => exact h.configure settings
  | map text columns attributes =>
    unfold FontFallback.step
    dsimp only
    split
    · next f' mappings hmap =>
      by_cases hadmits : f.Admits text columns attributes
      · rcases h.map hadmits with ⟨e, herror, -⟩ | ⟨f'', mappings', hok, -, hinv⟩
        · rw [herror] at hmap
          cases hmap
        · rw [hok] at hmap
          cases hmap
          exact hinv
      · unfold FontFallback.map at hmap
        rw [if_neg hadmits] at hmap
        cases hmap
    · exact h

lemma run_inv (dwrite : DirectWrite Face Format Settings) (privateFaces : List (List Face))
    (history : List (Request Settings)) : (run dwrite privateFaces history).Inv dwrite := by
  have hstart : (create privateFaces : FontFallback Face Format).Inv dwrite :=
    ⟨⟨Nat.zero_le _, rfl, Nat.zero_le _⟩, List.forall_mem_nil _⟩
  unfold run
  generalize create privateFaces = f at *
  induction history generalizing f with
  | nil => exact hstart
  | cons request history ih => exact ih _ (hstart.step request)

/-- **The faces of a text**, behind every history: `Map` answers what it would compute afresh, which partitions the
text, or one of its calls to DirectWrite has failed. -/
theorem map_partitions (dwrite : DirectWrite Face Format Settings) (privateFaces : List (List Face))
    (history : List (Request Settings)) (text columns : List UInt16) (attributes : ℕ) :
    let f := run dwrite privateFaces history
    f.CacheBounded ∧
      (f.Admits text columns attributes → ∃ format, f.formats[attributes]?.join = some format ∧
        (f.map dwrite text columns attributes).map Prod.snd =
          compute dwrite (f.privateFaces.getD attributes []) format text columns ∧
        ((∃ f' mappings, f.map dwrite text columns attributes = .ok (f', mappings) ∧ f'.CacheBounded ∧
            Partitions columns text.length mappings) ∨
          ∃ e, f.map dwrite text columns attributes = .error e ∧
            (layoutRanges dwrite format text = .error e ∨ e = .failed ∧ dwrite.LookupFails))) ∧
      (¬f.Admits text columns attributes → f.map dwrite text columns attributes = .error .invalidArgument) := by
  intro f
  have hinv : f.Inv dwrite := run_inv dwrite privateFaces history
  refine ⟨hinv.cache, fun hadmits => ?_, fun hrefused => if_neg hrefused⟩
  have hcolumns : columns.length = text.length + 1 := hadmits.2.2.1
  obtain ⟨format, hformat⟩ := Option.isSome_iff_exists.mp hadmits.2.2.2.1
  have hfresh : f.fresh dwrite text columns attributes =
      compute dwrite (f.privateFaces.getD attributes []) format text columns := by
    unfold fresh
    rw [hformat]
  refine ⟨format, hformat, ?_⟩
  rw [← hfresh]
  rcases hinv.map hadmits with ⟨e, herror, hsame⟩ | ⟨f', mappings, hok, hsame, hinv'⟩
  · rw [herror, hsame]
    refine ⟨rfl, .inr ⟨e, rfl, ?_⟩⟩
    rw [hfresh] at hsame
    rcases compute_spec dwrite (f.privateFaces.getD attributes []) format hcolumns with
      ⟨mappings, hok, -⟩ | ⟨e', herror', hlayout⟩ | ⟨hfailed, hlookup⟩
    · rw [hsame] at hok
      cases hok
    · rw [hsame] at herror'
      cases herror'
      exact .inl hlayout
    · rw [hsame] at hfailed
      cases hfailed
      exact .inr ⟨rfl, hlookup⟩
  · rw [hok, hsame]
    refine ⟨rfl, .inl ⟨f', mappings, rfl, hinv'.cache, ?_⟩⟩
    rw [hfresh] at hsame
    rcases compute_spec dwrite (f.privateFaces.getD attributes []) format hcolumns with
      ⟨mappings', hok', hpartitions⟩ | ⟨e', herror', -⟩ | ⟨hfailed, -⟩
    · rw [hsame] at hok'
      cases hok'
      exact hpartitions
    · rw [hsame] at herror'
      cases herror'
    · rw [hsame] at hfailed
      cases hfailed

end FontFallback

end Compute

end VT7.Renderer
