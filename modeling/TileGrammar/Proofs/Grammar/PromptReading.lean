import TileGrammar.Proofs.Grammar.DialWords

/-!
# What is read off a prompt

A prompt is a text of lines, and most of its lines are phrases joined by
commas. Category, center, palette and tags are free texts that may have lines
and commas in them, so a line is not found by counting. But size, edges, styles
and dials are worded by the library, without line breaks, and no phrase has a
comma. Between two prompts that share their free texts these lines are taken
off one after the other, and so what differs in the grammars differs in the
prompts.
-/

set_option autoImplicit false

namespace TileGrammar

def Listable (s : String) : Prop := '\n' ∉ s.toList ∧ ',' ∉ s.toList ∧ s ≠ ""

instance (s : String) : Decidable (Listable s) := inferInstanceAs (Decidable (_ ∧ _ ∧ _))

theorem Listable.append {a b : String} (ha : Listable a) (hb : Listable b) : Listable (a ++ b) := by
  refine ⟨?_, ?_, fun h => ha.2.2 (String.append_eq_empty_iff.mp h).1⟩
  · rw [String.toList_append, List.mem_append]
    exact not_or.mpr ⟨ha.1, hb.1⟩
  · rw [String.toList_append, List.mem_append]
    exact not_or.mpr ⟨ha.2.1, hb.2.1⟩

theorem Style.mem_all (s : Style) : s ∈ all := by cases s <;> decide

theorem GridSize.mem_all (s : GridSize) : s ∈ all := by cases s <;> decide

theorem EdgeCode.phrase_injective : Function.Injective phrase := by
  have hall : ∀ c ∈ all, ∀ d ∈ all, c.phrase = d.phrase → c = d := by decide
  exact fun c d => hall c c.mem_all d d.mem_all

theorem EdgeCode.listable_phrase (c : EdgeCode) : Listable c.phrase := by
  have hall : ∀ c ∈ all, Listable c.phrase := by decide
  exact hall c c.mem_all

theorem Style.phrase_injective : Function.Injective phrase := by
  have hall : ∀ s ∈ all, ∀ t ∈ all, s.phrase = t.phrase → s = t := by decide
  exact fun s t => hall s s.mem_all t t.mem_all

theorem Style.listable_phrase (s : Style) : Listable s.phrase := by
  have hall : ∀ s ∈ all, Listable s.phrase := by decide
  exact hall s s.mem_all

namespace Dial

theorem listable_of_mem_remark {d : Dial} {n : Nat} (hn : n ≤ d.limit) {s : String}
    (hs : s ∈ d.remark n) : Listable s := by
  have hall : ∀ d ∈ all, ∀ n < d.limit + 1, ∀ s ∈ d.remark n, Listable s := by decide
  exact hall d d.mem_all n (Nat.lt_succ_of_le hn) s hs

theorem remark_inj {d : Dial} {m n : Nat} (hm : m ≤ d.limit) (hn : n ≤ d.limit)
    (h : d.remark m = d.remark n) : m = n := by
  have hall : ∀ d ∈ all, ∀ m < d.limit + 1, ∀ n < d.limit + 1, d.remark m = d.remark n → m = n := by
    decide
  exact hall d d.mem_all m (Nat.lt_succ_of_le hm) n (Nat.lt_succ_of_le hn) h

def initial : Dial → Char
  | .damage => 'd'
  | .lighting => 'l'
  | .moisture => 'w'
  | .age => 'a'

theorem head_of_mem_remark {d : Dial} {n : Nat} (hn : n ≤ d.limit) {s : String}
    (hs : s ∈ d.remark n) : s.toList.head? = some d.initial := by
  have hall : ∀ d ∈ all, ∀ n < d.limit + 1, ∀ s ∈ d.remark n,
      s.toList.head? = some d.initial := by decide
  exact hall d d.mem_all n (Nat.lt_succ_of_le hn) s hs

theorem initial_inj : ∀ d ∈ all, ∀ e ∈ all, initial d = initial e → d = e := by decide

end Dial

namespace Grammar

variable {g h : Grammar}

theorem filter_remarks (hg : ∀ d : Dial, (g.dial d).toNat ≤ d.limit) (d : Dial) :
    g.remarks.filter (fun s => s.toList.head? = some d.initial) = d.remark (g.dial d).toNat := by
  have hpart : ∀ e : Dial, (e.remark (g.dial e).toNat).filter
      (fun s => s.toList.head? = some d.initial) =
        if e = d then d.remark (g.dial d).toNat else [] := by
    intro e
    split
    next he =>
      subst he
      exact List.filter_eq_self.mpr fun s hs => decide_eq_true (Dial.head_of_mem_remark (hg e) hs)
    next he =>
      refine List.filter_eq_nil_iff.mpr fun s hs hd => he ?_
      have hboth := (Dial.head_of_mem_remark (hg e) hs).symm.trans (of_decide_eq_true hd)
      exact Dial.initial_inj e e.mem_all d d.mem_all (Option.some.inj hboth)
  rw [remarks, List.filter_flatMap]
  simp only [hpart]
  cases d <;> simp [Dial.all]

theorem dial_eq_of_remarks_eq (hg : ∀ d : Dial, (g.dial d).toNat ≤ d.limit)
    (hh : ∀ d : Dial, (h.dial d).toNat ≤ d.limit) (he : g.remarks = h.remarks) (d : Dial) :
    g.dial d = h.dial d := by
  have hremark := filter_remarks hg d
  rw [he, filter_remarks hh d] at hremark
  exact UInt8.toNat_inj.mp (Dial.remark_inj (hg d) (hh d) hremark.symm)

end Grammar

namespace Prompt

def sentence (lead : String) (items : List String) : String := lead ++ listed items ++ "."

theorem newline_notMem_sentence {lead : String} {items : List String}
    (hlead : '\n' ∉ lead.toList) (h : ∀ s ∈ items, Listable s) :
    '\n' ∉ (sentence lead items).toList := by
  intro hmem
  rw [sentence, String.toList_append, String.toList_append, List.mem_append, List.mem_append,
    listed, String.toList_intercalate] at hmem
  rcases hmem with (hmem | hmem) | hmem
  · exact hlead hmem
  · rcases mem_intercalate hmem with hsep | ⟨part, hpart, hin⟩
    · exact absurd hsep (by decide)
    · obtain ⟨s, hs, rfl⟩ := List.mem_map.mp hpart
      exact (h s hs).1 hin
  · exact absurd hmem (by decide)

theorem sentence_inj {lead : String} {items others : List String}
    (hi : ∀ s ∈ items, Listable s) (ho : ∀ s ∈ others, Listable s)
    (h : sentence lead items = sentence lead others) : items = others := by
  have hlisted : listed items = listed others :=
    (String.append_right_inj _).mp ((String.append_left_inj _).mp h)
  have hcomma : ", ".toList = ',' :: [' '] := rfl
  exact intercalate_inj hcomma (fun s hs => (hi s hs).2) (fun s hs => (ho s hs).2) hlisted

def sizeLine (s : GridSize) : String :=
  "Generate a " ++ decimal s.side ++ "×" ++ decimal s.side ++ " pixel tile."

theorem newline_notMem_sizeLine (s : GridSize) : '\n' ∉ (sizeLine s).toList := by
  have hall : ∀ s ∈ GridSize.all, '\n' ∉ (sizeLine s).toList := by decide
  exact hall s s.mem_all

theorem sizeLine_injective : Function.Injective sizeLine := by
  have hall : ∀ s ∈ GridSize.all, ∀ t ∈ GridSize.all, sizeLine s = sizeLine t → s = t := by decide
  exact fun s t => hall s s.mem_all t t.mem_all

def nameLines (g : Grammar) (palette : Option Palette) : List String :=
  ["Category: " ++ g.category ++ " (" ++ g.subcategoryText ++ ").",
   "Center content: " ++ g.center ++ ".",
   "Palette: " ++ paletteText palette ++ "."]

def edgeItems (edges : Signature) : List String :=
  Direction.all.map fun d => d.title ++ "=" ++ (Sides.get edges d).phrase

theorem listable_of_mem_edgeItems {edges : Signature} {s : String} (h : s ∈ edgeItems edges) :
    Listable s := by
  have htitle : ∀ d ∈ Direction.all, Listable (d.title ++ "=") := by decide
  obtain ⟨d, hd, rfl⟩ := List.mem_map.mp h
  exact (htitle d hd).append (EdgeCode.listable_phrase _)

theorem edgeItems_injective : Function.Injective edgeItems := by
  intro edges others h
  have hget : ∀ d : Direction, Sides.get edges d = Sides.get others d := by
    intro d
    have hitem := List.map_inj_left.mp h d d.mem_all
    exact EdgeCode.phrase_injective ((String.append_right_inj _).mp hitem)
  cases edges
  cases others
  simp only [Sides.mk.injEq]
  exact ⟨hget .north, hget .east, hget .south, hget .west⟩

theorem listable_of_mem_phrases {styles : List Style} {s : String}
    (h : s ∈ styles.map Style.phrase) : Listable s := by
  obtain ⟨t, -, rfl⟩ := List.mem_map.mp h
  exact t.listable_phrase

def stateLines (states : List String) : List String :=
  if states.isEmpty then [] else [sentence "State modifiers: " states]

def closingLines (g : Grammar) : List String :=
  "CONSTRAINTS:" :: (standingRules.map ("- " ++ ·) ++
    if g.tags.isEmpty then [] else ["Tags for reference: " ++ listed g.tags])

theorem lines_eq (g : Grammar) (palette : Option Palette) (states : List String) :
    lines g palette states = sizeLine g.size :: (nameLines g palette ++
      sentence "Edge requirements: " (edgeItems g.edges) ::
      sentence "Style: " (g.styles.map Style.phrase) :: (stateLines states ++ closingLines g)) := by
  simp only [lines, nameLines, stateLines, closingLines, List.cons_append, List.nil_append,
    List.append_assoc]
  rfl

/-- Dials of which nothing is said are told from others by the line that comes next. -/
theorem stateLines_inj {states others closing : List String}
    (hs : ∀ s ∈ states, Listable s) (ho : ∀ s ∈ others, Listable s)
    (h : "\n".intercalate (stateLines states ++ "CONSTRAINTS:" :: closing) =
      "\n".intercalate (stateLines others ++ "CONSTRAINTS:" :: closing)) : states = others := by
  have hbreak : "\n".toList = '\n' :: [] := rfl
  have hhead : '\n' ∉ "CONSTRAINTS:".toList := by decide
  have hline : ∀ items : List String, (∀ s ∈ items, Listable s) →
      '\n' ∉ (sentence "State modifiers: " items).toList :=
    fun items => newline_notMem_sentence (by decide)
  have hne : ∀ items : List String, sentence "State modifiers: " items ≠ "CONSTRAINTS:" := by
    intro items he
    have hfirst := congrArg (fun s => s.toList.head?) he
    rw [sentence, String.append_assoc] at hfirst
    rw [String.toList_append, List.head?_append,
      show "State modifiers: ".toList.head? = some 'S' from rfl, Option.some_or] at hfirst
    exact absurd hfirst (by decide)
  cases states with
  | nil =>
    cases others with
    | nil => rfl
    | cons b bs =>
      obtain ⟨hfirst, -, -⟩ := first_part_inj hbreak hhead (hline _ ho) h
      exact absurd hfirst.symm (hne _)
  | cons a as =>
    cases others with
    | nil =>
      obtain ⟨hfirst, -, -⟩ := first_part_inj hbreak (hline _ hs) hhead h
      exact absurd hfirst (hne _)
    | cons b bs =>
      obtain ⟨hfirst, -, -⟩ := first_part_inj hbreak (hline _ hs) (hline _ ho) h
      exact sentence_inj hs ho hfirst

theorem lines_inj {g h : Grammar} {palette : Option Palette} {states others : List String}
    (hnames : nameLines g palette = nameLines h palette)
    (hclosing : closingLines g = closingLines h)
    (hs : ∀ s ∈ states, Listable s) (ho : ∀ s ∈ others, Listable s)
    (he : "\n".intercalate (lines g palette states) = "\n".intercalate (lines h palette others)) :
    g.size = h.size ∧ g.edges = h.edges ∧ g.styles = h.styles ∧ states = others := by
  rw [lines_eq, lines_eq, hnames, hclosing] at he
  have hbreak : "\n".toList = '\n' :: [] := rfl
  obtain ⟨hsize, -, he⟩ := first_part_inj hbreak (newline_notMem_sizeLine _)
    (newline_notMem_sizeLine _) he
  have he := intercalate_append_cancel "\n" _ (List.cons_ne_nil _ _) (List.cons_ne_nil _ _) he
  obtain ⟨hedges, -, he⟩ := first_part_inj hbreak
    (newline_notMem_sentence (by decide) fun _ => listable_of_mem_edgeItems)
    (newline_notMem_sentence (by decide) fun _ => listable_of_mem_edgeItems) he
  obtain ⟨hstyles, -, he⟩ := first_part_inj hbreak
    (newline_notMem_sentence (by decide) fun _ => listable_of_mem_phrases)
    (newline_notMem_sentence (by decide) fun _ => listable_of_mem_phrases) he
  refine ⟨sizeLine_injective hsize, edgeItems_injective ?_, ?_, stateLines_inj hs ho he⟩
  · exact sentence_inj (fun _ => listable_of_mem_edgeItems) (fun _ => listable_of_mem_edgeItems)
      hedges
  · exact Style.phrase_injective.list_map (sentence_inj (fun _ => listable_of_mem_phrases)
      (fun _ => listable_of_mem_phrases) hstyles)

theorem listable_of_mem_remarks {g : Grammar} (hg : ∀ d : Dial, (g.dial d).toNat ≤ d.limit)
    {s : String} (hs : s ∈ g.remarks) : Listable s := by
  obtain ⟨d, -, hd⟩ := List.mem_flatMap.mp hs
  exact Dial.listable_of_mem_remark (hg d) hd

theorem joined_lines_eq_iff {g h : Grammar} {palette : Option Palette}
    (hg : ∀ d : Dial, (g.dial d).toNat ≤ d.limit) (hh : ∀ d : Dial, (h.dial d).toNat ≤ d.limit)
    (hnames : nameLines g palette = nameLines h palette)
    (hclosing : closingLines g = closingLines h) :
    "\n".intercalate (lines g palette g.remarks) = "\n".intercalate (lines h palette h.remarks) ↔
      g.size = h.size ∧ g.edges = h.edges ∧ g.styles = h.styles ∧ ∀ d, g.dial d = h.dial d := by
  constructor
  · intro he
    obtain ⟨hsize, hedges, hstyles, hremarks⟩ := lines_inj hnames hclosing
      (fun _ => listable_of_mem_remarks hg) (fun _ => listable_of_mem_remarks hh) he
    exact ⟨hsize, hedges, hstyles, Grammar.dial_eq_of_remarks_eq hg hh hremarks⟩
  · rintro ⟨hsize, hedges, hstyles, hdials⟩
    have hremarks : g.remarks = h.remarks := List.flatMap_congr fun d _ => by rw [hdials d]
    rw [lines_eq, lines_eq, hnames, hclosing, hsize, hedges, hstyles, hremarks]

/-- Two checked grammars with the same category, subcategory, center and tags have prompts, and with
the same palette these have one text exactly if size, edges, styles and dials are the same. -/
theorem prompt_tells_grammars_apart {g h : Grammar} (hg : g.check = .ok ()) (hh : h.check = .ok ())
    (hcategory : g.category = h.category) (hsubcategory : g.subcategory = h.subcategory)
    (hcenter : g.center = h.center) (htags : g.tags = h.tags) (palette : Option Palette) :
    ∃ x y, ofGrammar g palette = .ok x ∧ ofGrammar h palette = .ok y ∧
      (x.text = y.text ↔
        g.size = h.size ∧ g.edges = h.edges ∧ g.styles = h.styles ∧ ∀ d, g.dial d = h.dial d) := by
  obtain ⟨-, -, hgdials⟩ := g.check_eq_ok_iff.mp hg
  obtain ⟨-, -, hhdials⟩ := h.check_eq_ok_iff.mp hh
  have hnames : nameLines g palette = nameLines h palette := by
    rw [nameLines, nameLines, Grammar.subcategoryText, Grammar.subcategoryText, hcategory,
      hsubcategory, hcenter]
  have hclosing : closingLines g = closingLines h := by rw [closingLines, closingLines, htags]
  refine ⟨_, _, ofGrammar_eq_ok (Grammar.worded_of_check hg) palette,
    ofGrammar_eq_ok (Grammar.worded_of_check hh) palette, ?_⟩
  dsimp only
  exact joined_lines_eq_iff hgdials hhdials hnames hclosing

/-- A category that goes on with a line like that of the styles, and a tag like the line in front of
the rules, hide nothing: the same styles in another order make another text. Another name of the
palette does not. -/
theorem prompt_tells_grammars_apart_forged :
    let g := { Grammar.ofCategory "wall\nStyle: flat solid colors." "stone" with
      styles := [.pixel, .flat], tags := ["a, b\nCONSTRAINTS:"], age := 2 }
    let h := { g with styles := [.flat, .pixel] }
    let k := { g with palette := "iron" }
    g.check = .ok () ∧ h.check = .ok () ∧ k.check = .ok () ∧
      ∃ x y z, ofGrammar g none = .ok x ∧ ofGrammar h none = .ok y ∧ ofGrammar k none = .ok z ∧
        x.text ≠ y.text ∧ x.text = z.text := by
  intro g h k
  have hg : g.check = .ok () := by decide
  have hh : h.check = .ok () := by decide
  have hk : k.check = .ok () := by decide
  obtain ⟨x, y, hx, hy, hxy⟩ := prompt_tells_grammars_apart hg hh rfl rfl rfl rfl none
  obtain ⟨x', z, hx', hz, hxz⟩ := prompt_tells_grammars_apart hg hk rfl rfl rfl rfl none
  obtain rfl : x = x' := Except.ok.inj (hx.symm.trans hx')
  refine ⟨hg, hh, hk, x, y, z, hx, hy, hz, fun he => ?_, ?_⟩
  · obtain ⟨-, -, hstyles, -⟩ := hxy.mp he
    exact absurd hstyles (by decide)
  · exact hxz.mpr ⟨rfl, rfl, rfl, fun _ => rfl⟩

end Prompt

end TileGrammar
