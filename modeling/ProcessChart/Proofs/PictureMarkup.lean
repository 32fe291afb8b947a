import ProcessChart.Picture.Svg
import ProcessChart.Proofs.FramedPieces
import ProcessChart.Settings.File

/-!
Which pictures are well-formed. Ids and labels are escaped and positions are
numbers, so they never break the markup. The font, the colours and the
background are written as they are, so the picture is well-formed when they may
stand between quotes and else it is not, unless one of them goes on behind an
early quote as a tag does.
-/

namespace ProcessChart

open Markup

/-- The ids and labels that are drawn have only characters that a document may have. -/
structure Diagram.Legible (d : Diagram) : Prop where
  nodes : ∀ n ∈ d.nodes, Permitted n.id.toList ∧ ∀ label ∈ n.label, Permitted label.toList
  edges : ∀ e ∈ d.edges, Permitted e.id.toList

namespace Picture

/-- The colour of the border of a node. -/
def strokeOf (t : Theme) (status? : Option RunStatus) : String :=
  (status?.map t.statusColor).getD t.primaryBorderColor

/-- The settings that the picture of a node shows. -/
def nodeSettings (t : Theme) (status? : Option RunStatus) (n : NodePlace) : List String :=
  [t.primaryColor, strokeOf t status?] ++
  (if n.kind = .exclusiveGateway then [t.primaryBorderColor] else []) ++
  (if n.label.getD "" = "" then [] else [t.fontFamily, t.primaryTextColor])

/-- The settings that a picture shows. -/
def shownSettings (d : Diagram) (t : Theme) (c : CanvasSettings) (statuses : Table RunStatus) :
    List String :=
  [c.background, t.lineColor] ++
  d.nodes.flatMap fun n => nodeSettings t (statuses.get? n.id) n

variable {given : List String}

theorem harmless_tenths (x : Float32) : Harmless (tenths x) := Decimal.harmless_fixed 1 _

theorem harmless_rounded (x : Float32) : Harmless (rounded x) := Decimal.harmless_fixed 0 _

theorem harmless_number (x : Float32) : Harmless (plain x) := Decimal.harmless_plain .single _

theorem harmless_diamondPoints (b : Bounds) : Harmless (diamondPoints b) := by
  have hcomma : Harmless [','] := by decide
  have hspace : Harmless [' '] := by decide
  unfold diamondPoints
  simp only [harmless_append_iff, harmless_tenths, Decimal.harmless_integer, hcomma, hspace,
    and_self]

theorem harmless_segment (x₁ y₁ x₂ y₂ : Float32) : Harmless (segment x₁ y₁ x₂ y₂) := by
  have hmove : Harmless "M ".toList := by decide
  have hline : Harmless " L ".toList := by decide
  have hspace : Harmless [' '] := by decide
  unfold segment
  simp only [harmless_append_iff]
  exact ⟨⟨⟨⟨⟨⟨⟨hmove, harmless_tenths x₁⟩, hspace⟩, harmless_tenths y₁⟩, hline⟩,
    harmless_tenths x₂⟩, hspace⟩, harmless_tenths y₂⟩

theorem harmless_pointsText (points : List Point) : Harmless (pointsText points) := by
  have hpoint : ∀ p : Point, Harmless (Decimal.integer p.x ++ [','] ++ Decimal.integer p.y) := by
    intro p
    have hcomma : harmless ',' = true := by decide
    simp [Decimal.harmless_integer, hcomma]
  unfold pointsText
  induction points with
  | nil => exact harmless_nil
  | cons p rest ih =>
    cases rest with
    | nil => simpa using hpoint p
    | cons q rest =>
      rw [List.map_cons, List.map_cons, List.intercalate_cons_cons, harmless_append_iff,
        harmless_append_iff]
      exact ⟨⟨hpoint p, by decide⟩, ih⟩

theorem assembled_textPieces {t : Theme} {lines : List String} (x y : Float32)
    (hfont : t.fontFamily ∈ given) (hcolor : t.primaryTextColor ∈ given)
    (hlines : ∀ line ∈ lines, Permitted line.toList) :
    Assembled given (textPieces t x y lines) := by
  have hnames : NamedOnce "text"
      ["x", "y", "text-anchor", "font-family", "font-size", "fill"] := by decide
  have hspan : NamedOnce "tspan" ["x", "dy"] := by decide
  unfold textPieces
  refine .element hnames ?_ (.flatten ?_)
  · simp only [List.forall_mem_cons]
    exact ⟨(harmless_tenths _).shows, (harmless_tenths _).shows, Harmless.shows (by decide),
      shows_given hfont, (harmless_number _).shows, shows_given hcolor, by simp⟩
  · intro ps hps
    obtain ⟨i, hi, rfl⟩ := List.mem_mapIdx.mp hps
    have hline := isValue_escapeChars (hlines lines[i] (List.getElem_mem hi))
    refine .element hspan ?_ (.text hline.toIsData)
    simp only [List.forall_mem_cons]
    exact ⟨(harmless_tenths _).shows, (harmless_tenths _).shows, by simp⟩

theorem assembled_circlePiece {t : Theme} {b : Bounds} {stroke width : String}
    (hfill : t.primaryColor ∈ given) (hstroke : stroke ∈ given) (hwidth : Harmless width.toList) :
    Assembled given [circlePiece t b stroke width] := by
  have hnames : NamedOnce "circle" ["cx", "cy", "r", "fill", "stroke", "stroke-width"] := by decide
  refine .single hnames ?_
  simp only [List.forall_mem_cons]
  exact ⟨(harmless_tenths _).shows, (harmless_tenths _).shows, (harmless_tenths _).shows,
    shows_given hfill, shows_given hstroke, hwidth.shows, by simp⟩

theorem assembled_boxPiece {t : Theme} {b : Bounds} {stroke : String}
    (hfill : t.primaryColor ∈ given) (hstroke : stroke ∈ given) :
    Assembled given [boxPiece t b stroke] := by
  have hnames : NamedOnce "rect"
      ["x", "y", "width", "height", "rx", "ry", "fill", "stroke", "stroke-width"] := by decide
  refine .single hnames ?_
  simp only [List.forall_mem_cons]
  exact ⟨(Decimal.harmless_integer _).shows, (Decimal.harmless_integer _).shows,
    (Decimal.harmless_integer _).shows, (Decimal.harmless_integer _).shows,
    Harmless.shows (by decide), Harmless.shows (by decide), shows_given hfill,
    shows_given hstroke, Harmless.shows (by decide), by simp⟩

theorem assembled_diamondPieces {t : Theme} {b : Bounds} {stroke : String}
    (hfill : t.primaryColor ∈ given) (hstroke : stroke ∈ given)
    (hborder : t.primaryBorderColor ∈ given) :
    Assembled given (diamondPieces t b stroke) := by
  have hpolygon : NamedOnce "polygon" ["points", "fill", "stroke", "stroke-width"] := by decide
  have hpath : NamedOnce "path" ["d", "stroke", "stroke-width"] := by decide
  have hspace : harmless ' ' = true := by decide
  unfold diamondPieces
  refine .append (.single hpolygon ?_) (.single hpath ?_)
  · simp only [List.forall_mem_cons]
    exact ⟨(harmless_diamondPoints b).shows, shows_given hfill, shows_given hstroke,
      Harmless.shows (by decide), by simp⟩
  · simp only [List.forall_mem_cons]
    refine ⟨Harmless.shows ?_, shows_given hborder, Harmless.shows (by decide), by simp⟩
    simp [harmless_segment, hspace]

theorem assembled_shapePieces {t : Theme} {kind : NodeKind} {b : Bounds} {stroke : String}
    (hfill : t.primaryColor ∈ given) (hstroke : stroke ∈ given)
    (hborder : kind = .exclusiveGateway → t.primaryBorderColor ∈ given) :
    Assembled given (shapePieces t kind b stroke) := by
  cases kind with
  | startEvent => exact assembled_circlePiece hfill hstroke (by decide)
  | endEvent => exact assembled_circlePiece hfill hstroke (by decide)
  | task => exact assembled_boxPiece hfill hstroke
  | exclusiveGateway => exact assembled_diamondPieces hfill hstroke (hborder rfl)

theorem assembled_labelPieces {t : Theme} {n : NodePlace}
    (hgiven : n.label.getD "" ≠ "" → t.fontFamily ∈ given ∧ t.primaryTextColor ∈ given)
    (hlabel : ∀ label ∈ n.label, Permitted label.toList) :
    Assembled given (labelPieces t n) := by
  unfold labelPieces
  cases hn : n.label with
  | none => exact .nil
  | some label =>
    have hlines : ∀ limit, ∀ line ∈ wrap limit label, Permitted line.toList := by
      intro limit line hline c hc
      rcases mem_of_mem_wrap hline c hc with hc | rfl
      · exact hlabel label hn c hc
      · decide
    by_cases hempty : label = ""
    · simp only [hempty, if_pos]
      exact .nil
    · obtain ⟨hfont, hcolor⟩ := hgiven (by rw [hn]; exact hempty)
      simp only [if_neg hempty]
      split
      · exact assembled_textPieces _ _ hfont hcolor (hlines _)
      · exact assembled_textPieces _ _ hfont hcolor (hlines _)

theorem assembled_nodePieces {t : Theme} {status? : Option RunStatus} {n : NodePlace}
    (hgiven : ∀ s ∈ nodeSettings t status? n, s ∈ given)
    (hid : Permitted n.id.toList)
    (hlabel : ∀ label ∈ n.label, Permitted label.toList) :
    Assembled given (nodePieces t status? n) := by
  simp only [nodeSettings, List.forall_mem_append, List.forall_mem_cons] at hgiven
  obtain ⟨⟨⟨hfill, hstroke, -⟩, hborder⟩, htext⟩ := hgiven
  have hshape : Assembled given (shapePieces t n.kind n.bounds (strokeOf t status?)) := by
    refine assembled_shapePieces hfill hstroke fun hkind => hborder _ ?_
    rw [if_pos hkind]
    exact List.mem_singleton_self _
  have hwritten : Assembled given (labelPieces t n) := by
    refine assembled_labelPieces (fun hempty => ?_) hlabel
    rw [if_neg hempty, List.forall_mem_cons, List.forall_mem_singleton] at htext
    exact htext
  unfold nodePieces
  cases status? with
  | none =>
    have hnames : NamedOnce "g" ["data-element"] := by decide
    refine .element hnames ?_ (hshape.append hwritten)
    simp only [Option.toList_none, List.map_nil, List.forall_mem_singleton]
    exact shows_escaped hid
  | some status =>
    have hnames : NamedOnce "g" ["data-element", "data-status"] := by decide
    have hstatus : Harmless status.name.toList := by cases status <;> decide
    refine .element hnames ?_ (hshape.append hwritten)
    simp only [Option.toList_some, List.map_cons, List.map_nil, List.forall_mem_cons]
    exact ⟨shows_escaped hid, hstatus.shows, by simp⟩

theorem assembled_edgePiece {t : Theme} {e : EdgeRoute} (hline : t.lineColor ∈ given)
    (hid : Permitted e.id.toList) : Assembled given [edgePiece t e] := by
  have hnames : NamedOnce "polyline"
      ["data-flow", "points", "fill", "stroke", "stroke-width", "marker-end"] := by decide
  refine .single hnames ?_
  simp only [List.forall_mem_cons]
  exact ⟨shows_escaped hid, (harmless_pointsText e.points).shows, Harmless.shows (by decide),
    shows_given hline, Harmless.shows (by decide), Harmless.shows (by decide), by simp⟩

theorem assembled_arrowPieces {t : Theme} (hline : t.lineColor ∈ given) :
    Assembled given (arrowPieces t) := by
  have hdefs : NamedOnce "defs" [] := by decide
  have hmarker : NamedOnce "marker"
      ["id", "viewBox", "refX", "refY", "markerWidth", "markerHeight", "orient"] := by decide
  have hpath : NamedOnce "path" ["d", "fill"] := by decide
  have hvalues : ∀ a ∈ [Attribute.verbatim "id" "arrow", .verbatim "viewBox" "0 0 10 10",
      .verbatim "refX" "10", .verbatim "refY" "5", .verbatim "markerWidth" "8",
      .verbatim "markerHeight" "8", .verbatim "orient" "auto-start-reverse"],
      Harmless a.written := by decide
  unfold arrowPieces
  refine .element hdefs (by simp) (.element hmarker ?_ (.single hpath ?_))
  · exact fun a ha => (hvalues a ha).shows
  · simp only [List.forall_mem_cons]
    exact ⟨Harmless.shows (by decide), shows_given hline, by simp⟩

/-- What stands between the outermost tags of a picture. -/
def innerPieces (d : Diagram) (t : Theme) (c : CanvasSettings) (statuses : Table RunStatus) :
    List Piece :=
  let f := frame d t c
  [.single "rect"
    [⟨"x", rounded f.x⟩, ⟨"y", rounded f.y⟩, .verbatim "width" "100%",
     .verbatim "height" "100%", .verbatim "fill" c.background]] ++
  arrowPieces t ++ d.edges.map (edgePiece t) ++
  d.nodes.flatMap (fun n => nodePieces t (statuses.get? n.id) n)

theorem assembled_innerPieces {d : Diagram} {t : Theme} {c : CanvasSettings}
    {statuses : Table RunStatus} (hd : d.Legible) :
    Assembled (shownSettings d t c statuses) (innerPieces d t c statuses) := by
  have hnames : NamedOnce "rect" ["x", "y", "width", "height", "fill"] := by decide
  have hbackground : c.background ∈ shownSettings d t c statuses := by simp [shownSettings]
  have hline : t.lineColor ∈ shownSettings d t c statuses := by simp [shownSettings]
  have hnodes : ∀ n ∈ d.nodes, ∀ s ∈ nodeSettings t (statuses.get? n.id) n,
      s ∈ shownSettings d t c statuses := by
    intro n hn s hs
    exact List.mem_append_right _ (List.mem_flatMap_of_mem hn hs)
  unfold innerPieces
  refine .append (.append (.append (.single hnames ?_) (assembled_arrowPieces hline)) ?_) ?_
  · simp only [List.forall_mem_cons]
    exact ⟨(harmless_rounded _).shows, (harmless_rounded _).shows, Harmless.shows (by decide),
      Harmless.shows (by decide), shows_given hbackground, by simp⟩
  · rw [List.map_eq_flatMap]
    exact .flatMap fun e he => assembled_edgePiece hline (hd.edges e he)
  · exact .flatMap fun n hn => assembled_nodePieces (hnodes n hn) (hd.nodes n hn).1 (hd.nodes n hn).2

theorem carries_shapePieces (t : Theme) (kind : NodeKind) (b : Bounds) (stroke : String) :
    Carries (shapePieces t kind b stroke) t.primaryColor ∧
      Carries (shapePieces t kind b stroke) stroke ∧
      (kind = .exclusiveGateway → Carries (shapePieces t kind b stroke) t.primaryBorderColor) := by
  cases kind <;>
    simp [Carries, shapePieces, circlePiece, boxPiece, diamondPieces, Piece.attributes,
      Attribute.verbatim]

theorem carries_labelPieces {t : Theme} {n : NodePlace} (h : n.label.getD "" ≠ "") :
    Carries (labelPieces t n) t.fontFamily ∧ Carries (labelPieces t n) t.primaryTextColor := by
  have htext : ∀ x y lines, Carries (textPieces t x y lines) t.fontFamily ∧
      Carries (textPieces t x y lines) t.primaryTextColor := by
    intro x y lines
    simp [Carries, textPieces, Piece.attributes, Attribute.verbatim]
  unfold labelPieces
  cases hn : n.label with
  | none => simp [hn] at h
  | some label =>
    have hlabel : label ≠ "" := by simpa [hn] using h
    simp only [if_neg hlabel]
    split
    · exact htext _ _ _
    · exact htext _ _ _

theorem carries_nodePieces {t : Theme} {status? : Option RunStatus} {n : NodePlace} {s : String}
    (h : s ∈ nodeSettings t status? n) : Carries (nodePieces t status? n) s := by
  have hshape : ∀ {r}, Carries (shapePieces t n.kind n.bounds (strokeOf t status?)) r →
      Carries (nodePieces t status? n) r :=
    fun hr => hr.of_subset fun p hp => by
      simp only [nodePieces, strokeOf] at hp ⊢
      simp [hp]
  have hlabel : ∀ {r}, Carries (labelPieces t n) r → Carries (nodePieces t status? n) r :=
    fun hr => hr.of_subset fun p hp => by simp [nodePieces, hp]
  obtain ⟨hfill, hstroke, hborder⟩ :=
    carries_shapePieces t n.kind n.bounds (strokeOf t status?)
  rcases List.mem_append.mp h with h | h
  · rcases List.mem_append.mp h with h | h
    · simp only [List.mem_cons, List.not_mem_nil, or_false] at h
      rcases h with rfl | rfl
      · exact hshape hfill
      · exact hshape hstroke
    · split at h
      · rw [List.mem_singleton.mp h]
        exact hshape (hborder ‹_›)
      · exact absurd h List.not_mem_nil
  · split at h
    · exact absurd h List.not_mem_nil
    · obtain ⟨hfont, hcolor⟩ := carries_labelPieces (t := t) ‹_›
      simp only [List.mem_cons, List.not_mem_nil, or_false] at h
      rcases h with rfl | rfl
      · exact hlabel hfont
      · exact hlabel hcolor

theorem carries_innerPieces {d : Diagram} {t : Theme} {c : CanvasSettings}
    {statuses : Table RunStatus} {s : String} (h : s ∈ shownSettings d t c statuses) :
    Carries (innerPieces d t c statuses) s := by
  rcases List.mem_append.mp h with h | h
  · simp only [List.mem_cons, List.not_mem_nil, or_false] at h
    rcases h with rfl | rfl
    · simp [Carries, innerPieces, Piece.attributes, Attribute.verbatim]
    · simp [Carries, innerPieces, arrowPieces, Piece.attributes, Attribute.verbatim]
  · obtain ⟨n, hn, hs⟩ := List.mem_flatMap.mp h
    refine (carries_nodePieces hs).of_subset fun p hp => ?_
    exact List.mem_append_right _ (List.mem_flatMap_of_mem hn hp)

theorem pieces_eq_element (d : Diagram) (t : Theme) (c : CanvasSettings)
    (statuses : Table RunStatus) :
    ∃ as, pieces d t c statuses =
        .opening "svg" as :: (innerPieces d t c statuses ++ [.closing "svg"]) ∧
      NamedOnce "svg" (as.map (·.name)) ∧ ∀ a ∈ as, Harmless a.written := by
  have hnames : NamedOnce "svg" ["xmlns", "width", "height", "viewBox"] := by decide
  have hspace : harmless ' ' = true := by decide
  refine ⟨_, rfl, hnames, ?_⟩
  simp only [List.forall_mem_cons]
  refine ⟨by decide, harmless_rounded _, harmless_rounded _, ?_, by simp⟩
  simp [harmless_rounded, hspace]

section WellFormedness

variable {d : Diagram} {t : Theme} {c : CanvasSettings} {statuses : Table RunStatus}

theorem svg_wellFormed_of_isValue (hd : d.Legible)
    (h : ∀ s ∈ shownSettings d t c statuses, IsValue s.toList) :
    WellFormed "svg" (svg d t c statuses).toList := by
  obtain ⟨as, hpieces, hnames, hharmless⟩ := pieces_eq_element d t c statuses
  rw [svg, String.toList_ofList, hpieces]
  exact wellFormed_of_assembled hnames (fun a ha => (hharmless a ha).shows)
    (assembled_innerPieces hd) h

theorem isValue_of_svg_wellFormed (hd : d.Legible)
    (hearly : ∀ s ∈ shownSettings d t c statuses, ¬ EndsEarly s.toList)
    (h : WellFormed "svg" (svg d t c statuses).toList) :
    ∀ s ∈ shownSettings d t c statuses, IsValue s.toList := by
  obtain ⟨as, hpieces, hnames, hharmless⟩ := pieces_eq_element d t c statuses
  rw [svg, String.toList_ofList, hpieces] at h
  exact isValue_of_assembled hnames (fun a ha => (hharmless a ha).shows)
    (assembled_innerPieces hd) (fun s hs => carries_innerPieces hs) hearly h

end WellFormedness

/-- A picture is well-formed exactly when the settings in it are fit to be quoted,
unless one of them ends early. -/
theorem svg_wellFormed_iff (d : Diagram) (t : Theme) (c : CanvasSettings)
    (statuses : Table RunStatus) (hd : d.Legible)
    (hearly : ∀ s ∈ shownSettings d t c statuses, ¬ EndsEarly s.toList) :
    WellFormed "svg" (svg d t c statuses).toList ↔
      ∀ s ∈ shownSettings d t c statuses, IsValue s.toList :=
  ⟨isValue_of_svg_wellFormed hd hearly, svg_wellFormed_of_isValue hd⟩

/-- One task, with a label that has to be escaped. -/
def payment : Diagram where
  processId := "P"
  nodes := [⟨"pay", .task, some "Pay & <go>", 0, 0, ⟨0, 0, 100, 80⟩⟩]
  edges := []

theorem legible_payment : payment.Legible :=
  ⟨by decide, by decide⟩

/-- The colours and the font of the standard theme may all be quoted. -/
theorem svg_payment_wellFormed :
    payment.Legible ∧
      (∀ s ∈ shownSettings payment .bpmn .standard .empty, ¬ EndsEarly s.toList) ∧
      WellFormed "svg" (svg payment .bpmn .standard .empty).toList := by
  have hharmless : ∀ s ∈ shownSettings payment .bpmn .standard .empty, Harmless s.toList := by
    decide
  have hearly : ∀ s ∈ shownSettings payment .bpmn .standard .empty, ¬ EndsEarly s.toList :=
    fun s hs => not_endsEarly_of_not_mem (hharmless s hs).isValue.quote
  refine ⟨legible_payment, hearly, ?_⟩
  rw [svg_wellFormed_iff payment .bpmn .standard .empty legible_payment hearly]
  exact fun s hs => (hharmless s hs).isValue

/-- A font whose name is quoted, as style sheets want names with spaces. -/
def quotedFont : Theme := { Theme.bpmn with fontFamily := "\"Segoe UI\", sans-serif" }

/-- The settings file names the font, every character of it may stand in a document, and
the picture is broken. -/
theorem svg_quotedFont_not_wellFormed :
    Settings.ofText "\x7bthemeVariables: \x7bfontFamily: '\"Segoe UI\", sans-serif'\x7d\x7d" =
        .ok { Settings.standard with theme := quotedFont } ∧
      payment.Legible ∧
      (∀ s ∈ shownSettings payment quotedFont .standard .empty, Permitted s.toList) ∧
      ¬ WellFormed "svg" (svg payment quotedFont .standard .empty).toList := by
  have hfont : quotedFont.fontFamily ∈ shownSettings payment quotedFont .standard .empty := by
    decide
  have hstart : quotedFont.fontFamily.toList = '"' :: 'S' :: "egoe UI\", sans-serif".toList := by
    decide
  have hothers : ∀ s ∈ shownSettings payment quotedFont .standard .empty,
      s = quotedFont.fontFamily ∨ '"' ∉ s.toList := by
    decide
  have hearly : ∀ s ∈ shownSettings payment quotedFont .standard .empty, ¬ EndsEarly s.toList := by
    intro s hs
    rcases hothers s hs with rfl | hquote
    · rw [hstart]
      rintro ⟨u, c, w, hsplit, hu, hc⟩
      cases u with
      | nil =>
        obtain rfl : 'S' = c := (List.cons.inj (List.cons.inj hsplit).2).1
        exact absurd hc (by decide)
      | cons x u =>
        obtain rfl : '"' = x := (List.cons.inj hsplit).1
        exact hu List.mem_cons_self
    · exact not_endsEarly_of_not_mem hquote
  refine ⟨rfl, legible_payment, by decide, fun hwell => ?_⟩
  have hvalue := isValue_of_svg_wellFormed legible_payment hearly hwell _ hfont
  exact hvalue.quote (by rw [hstart]; exact List.mem_cons_self)

end Picture

end ProcessChart
