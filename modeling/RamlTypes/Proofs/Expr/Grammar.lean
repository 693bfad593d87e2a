import RamlTypes.Expr.Reader

/-!
# The reader accepts the grammar

A text is read as a tree exactly when the grammar derives the tree from it, so no text has two trees
(`Expr.parse_iff_derives`). For one direction, what is read so far always splits at the open groups
and at the last bar (`Reader.Reads`). For the other one, the reader takes the text of an operand from
wherever one may begin, and ends in a focus that stands for the operand (`Reader.takes_operand`).
-/

namespace RamlTypes.Expr

/-! ## Blanks and names -/

/-- No character at all is a gap. -/
theorem blank_nil : Blank [] := List.forall_mem_nil _

/-- One blank character is a gap. -/
theorem blank_singleton {c : Char} (h : Text.isBlank c) : Blank [c] :=
  List.forall_mem_singleton.2 h

/-- Two gaps are a gap. -/
theorem Blank.append {w v : List Char} (hw : Blank w) (hv : Blank v) : Blank (w ++ v) :=
  List.forall_mem_append.2 ⟨hw, hv⟩

/-- One name character is a name. -/
theorem isName_singleton {c : Char} (h : isNameChar c) : IsName [c] :=
  ⟨List.cons_ne_nil _ _, List.forall_mem_singleton.2 h⟩

/-- A name goes on by name characters. -/
theorem IsName.snoc {n : List Char} {c : Char} (h : IsName n) (hc : isNameChar c) :
    IsName (n ++ [c]) :=
  ⟨List.append_ne_nil_of_left_ne_nil h.1 _,
    List.forall_mem_append.2 ⟨h.2, List.forall_mem_singleton.2 hc⟩⟩

/-! ## What is read is derived -/

/-- The text of an operand, as far as it is read. -/
inductive Focus.Reads : Focus → List Char → Prop
  | operand : Reads .operand []
  | name {n : List Char} : IsName n → Reads (.name n) n
  | dot {l : List Char} : IsName l → Reads (.dot l) (l ++ ['.'])
  | qualified {l n : List Char} : IsName l → IsName n → Reads (.qualified l n) (l ++ '.' :: n)
  | bracket {ds : List Char} {e : Expr} : Operand ds e → Reads (.bracket e) (ds ++ ['['])
  | complete {ds : List Char} {e : Expr} : Operand ds e → Reads (.complete e) ds
  | gap {ds w : List Char} {e : Expr} : Operand ds e → Blank w → Reads (.gap e) (ds ++ w)

namespace Reader

/-- The text between the beginning of a group and an operand: blanks, or alternatives of which each
is followed by a bar. -/
inductive Leads : List Expr → List Char → Prop
  | blank {w : List Char} : Blank w → Leads [] w
  | bar {w cs v u : List Char} {es : List Expr} : Blank w → Members cs es → Blank v → Blank u →
      Leads es (w ++ cs ++ v ++ '|' :: u)

/-- The text up to the beginning of the innermost group. -/
inductive Opens : List (List Expr) → List Char → Prop
  | none : Opens [] []
  | group {outer : List (List Expr)} {es : List Expr} {pre cs : List Char} : Opens outer pre →
      Leads es cs → Opens (es :: outer) (pre ++ cs ++ ['('])

/-- The reader is in this state when it has read the text. -/
inductive Reads (r : Reader) (text : List Char) : Prop
  | mk {pre cs ds : List Char} (opens : Opens r.outer pre) (leads : Leads r.members cs)
      (focus : r.focus.Reads ds) (text_eq : text = pre ++ cs ++ ds)

/-- An operand completes the alternatives before it. -/
theorem Leads.members {es : List Expr} {e : Expr} {cs ds : List Char} (h : Leads es cs)
    (hd : Operand ds e) : ∃ w ms, Blank w ∧ Members ms (es ++ [e]) ∧ cs ++ ds = w ++ ms := by
  cases h with
  | blank hw => exact ⟨_, ds, hw, .one hd, rfl⟩
  | bar hw hm hv hu => exact ⟨_, _, hw, .more hm hv hu hd, by simp⟩

/-- A gap after an operator belongs to it. -/
theorem Leads.snoc {es : List Expr} {cs : List Char} {c : Char} (h : Leads es cs)
    (hc : Text.isBlank c) : Leads es (cs ++ [c]) := by
  cases h with
  | blank hw => exact .blank (hw.append (blank_singleton hc))
  | bar hw hm hv hu =>
    rw [List.append_assoc _ (_ :: _), List.cons_append]
    exact .bar hw hm hv (hu.append (blank_singleton hc))

variable {r r' : Reader} {c : Char} {e : Expr}

section
variable {pre cs ds w text : List Char} (ho : Opens r.outer pre) (hl : Leads r.members cs)
  (hd : Operand ds e)
include ho hl hd

/-- What follows an operand and blanks. -/
theorem reads_afterGap (hw : Blank w) (h : r.afterGap e c = some r')
    (ht : text = pre ++ cs ++ (ds ++ w)) : r'.Reads (text ++ [c]) := by
  obtain ⟨v, ms, hv, hm, hms⟩ := hl.members hd
  subst ht
  rw [afterGap] at h
  split at h
  · next hc =>
    cases h
    exact .mk ho hl (.gap hd (hw.append (blank_singleton hc))) (by simp)
  split at h
  · next hc =>
    cases h
    subst hc
    refine .mk ho (.bar hv hm hw blank_nil) .operand ?_
    rw [← hms]
    simp
  split at h
  · next hc =>
    subst hc
    split at h
    · next members outer heq =>
      cases h
      rw [heq] at ho
      cases ho with
      | group ho' hl' =>
        refine .mk ho' hl' (.complete (.group hv hm hw)) ?_
        rw [List.cons_append, List.cons_append, ← hms]
        simp
    · cases h
  · cases h

/-- What follows an operand. -/
theorem reads_afterOperand (h : r.afterOperand e c = some r') (ht : text = pre ++ cs ++ ds) :
    r'.Reads (text ++ [c]) := by
  rw [afterOperand] at h
  split at h
  · next hc =>
    cases h
    exact .mk ho hl (.bracket hd) (by simp [ht, hc])
  split at h
  · next hc =>
    cases h
    exact .mk ho hl (.complete hd.optional) (by simp [ht, hc])
  · exact reads_afterGap ho hl hd blank_nil h (by rw [ht, List.append_nil])

end

/-- The reader takes one more character. -/
theorem Reads.step {text : List Char} (h : r.Reads text) (hr : r.step c = some r') :
    r'.Reads (text ++ [c]) := by
  obtain ⟨outer, members, focus⟩ := r
  obtain ⟨ho, hl, hf, ht⟩ := h
  rw [Reader.step] at hr
  -- What the reader has at hand decides which characters can follow.
  cases hf with
  | operand =>
    dsimp only at hr
    split at hr
    · next hc =>
      cases hr
      exact .mk ho (hl.snoc hc) .operand (by simp [ht])
    split at hr
    · next hc =>
      cases hr
      exact .mk (.group ho hl) (.blank blank_nil) .operand (by simp [ht, hc])
    split at hr
    · next hc =>
      cases hr
      exact .mk ho hl (.name (isName_singleton hc)) (by simp [ht])
    · cases hr
  | name hn =>
    dsimp only at hr
    split at hr
    · next hc =>
      cases hr
      exact .mk ho hl (.name (hn.snoc hc)) (by simp [ht])
    split at hr
    · next hc =>
      cases hr
      exact .mk ho hl (.dot hn) (by simp [ht, hc])
    · exact reads_afterOperand ho hl (.name hn) hr ht
  | dot hn =>
    dsimp only at hr
    split at hr
    · next hc =>
      cases hr
      exact .mk ho hl (.qualified hn (isName_singleton hc)) (by simp [ht])
    · cases hr
  | qualified hn hm =>
    dsimp only at hr
    split at hr
    · next hc =>
      cases hr
      exact .mk ho hl (.qualified hn (hm.snoc hc)) (by simp [ht])
    · exact reads_afterOperand ho hl (.qualified hn hm) hr ht
  | bracket hd =>
    dsimp only at hr
    split at hr
    · next hc =>
      cases hr
      exact .mk ho hl (.complete hd.array) (by simp [ht, hc])
    · cases hr
  | complete hd => exact reads_afterOperand ho hl hd hr ht
  | gap hd hw => exact reads_afterGap ho hl hd hw hr ht

/-- A text that may end is derived. -/
theorem Reads.derives {text : List Char} (h : r.Reads text) (hr : r.finish? = some e) :
    Derives text e := by
  obtain ⟨outer, members, focus⟩ := r
  obtain ⟨ho, hl, hf, ht⟩ := h
  rw [finish?] at hr
  split at hr
  · next f hout hop =>
    cases hr
    cases hout
    cases ho
    obtain ⟨ds, w, hd, hw, hds⟩ : ∃ ds w, Operand ds f ∧ Blank w ∧ text = _ ++ (ds ++ w) := by
      cases hf with
      | name hn =>
        cases hop
        exact ⟨_, [], .name hn, blank_nil, by rw [ht, List.append_nil]⟩
      | qualified hn hm =>
        cases hop
        exact ⟨_, [], .qualified hn hm, blank_nil, by rw [ht, List.append_nil]⟩
      | complete hd =>
        cases hop
        exact ⟨_, [], hd, blank_nil, by rw [ht, List.append_nil]⟩
      | gap hd hw =>
        cases hop
        exact ⟨_, _, hd, hw, ht⟩
      | operand | dot | bracket => cases hop
    obtain ⟨v, ms, hv, hm, hms⟩ := hl.members hd
    rw [hds, ← List.append_assoc, List.nil_append, hms]
    exact .mk hv hm hw
  · cases hr

/-- By induction on what is left of the text: what the reader accepts is derived by the grammar. -/
theorem Reads.derives_of_run (rest : List Char) : ∀ {r : Reader} {text : List Char} {offset : Nat},
    r.Reads text → r.run offset rest = .ok e → Derives (text ++ rest) e := by
  induction rest with
  | nil =>
    intro r text offset h hr
    rw [run] at hr
    split at hr
    · next hfinish =>
      cases hr
      rw [List.append_nil]
      exact h.derives hfinish
    · cases hr
  | cons c rest ih =>
    intro r text offset h hr
    rw [run] at hr
    split at hr
    · next hstep =>
      have := ih (h.step hstep) hr
      rwa [List.append_assoc] at this
    · cases hr

/-- At the beginning nothing has been read. -/
theorem reads_start : start.Reads [] := .mk .none (.blank blank_nil) .operand rfl

end Reader

/-! ## What is derived is read -/

/-- A blank character belongs to no name. -/
theorem isNameChar_of_isBlank {c : Char} (h : Text.isBlank c) : isNameChar c = false ∧ c ≠ '.' := by
  have heq (d : Char) : c = d ↔ c.toNat = d.toNat := Char.toNat_inj.symm
  have hval : c.val.toNat = c.toNat := rfl
  simp only [Text.isBlank, Bool.or_eq_true, Bool.and_eq_true, decide_eq_true_eq, beq_iff_eq] at h
  delta isNameChar Char.isAlphanum Char.isAlpha Char.isUpper Char.isLower Char.isDigit
  simp [heq, UInt32.le_iff_toNat_le, hval]
  omega

/-- A complete operand that more characters can make longer. -/
inductive Focus.Stands : Focus → Expr → Prop
  | name (n : List Char) : Stands (.name n) (ofName (String.ofList n))
  | qualified (l n : List Char) :
      Stands (.qualified l n) (.ref (some (String.ofList l)) (String.ofList n))
  | complete (e : Expr) : Stands (.complete e) e

/-- A complete operand, which blanks may follow. -/
inductive Focus.Ends (f : Focus) (e : Expr) : Prop
  | stands (h : f.Stands e)
  | gap (h : f = .gap e)

namespace Reader

/-- Takes characters one after the other, or gets stuck. -/
def take? (r : Reader) (cs : List Char) : Option Reader :=
  cs.foldlM step r

variable {r s t : Reader} {cs ds : List Char}

/-- Taking no characters leaves the reader. -/
@[simp] theorem take?_nil (r : Reader) : r.take? [] = some r := rfl

/-- Characters are taken one by one. -/
theorem take?_cons (r : Reader) (c : Char) (cs : List Char) :
    r.take? (c :: cs) = (r.step c).bind (·.take? cs) := rfl

/-- What can be taken one after the other can be taken together. -/
theorem take?_append (h : r.take? cs = some s) (h' : s.take? ds = some t) :
    r.take? (cs ++ ds) = some t := by
  rw [take?, List.foldlM_append]
  rw [take?] at h h'
  rw [h]
  exact h'

/-- A single character is one step. -/
theorem take?_singleton {c : Char} (h : r.step c = some s) : r.take? [c] = some s := by
  rw [take?_cons, h]
  rfl

/-- A text that is taken to its end yields what the reader has read. -/
theorem run_of_take? {e : Expr} (cs : List Char) : ∀ {r : Reader} (offset : Nat),
    r.take? cs = some s → s.finish? = some e → r.run offset cs = .ok e := by
  induction cs with
  | nil =>
    intro r offset h hs
    cases h
    rw [run, hs]
  | cons c rest ih =>
    intro r offset h hs
    rw [take?_cons, Option.bind_eq_some_iff] at h
    obtain ⟨r', hr, h⟩ := h
    rw [run, hr]
    exact ih _ h hs

section
variable (outer : List (List Expr)) (members : List Expr) {f : Focus} {e : Expr} {w n : List Char}
  {c : Char}

/-- A complete operand is left with a character that belongs to no name. -/
theorem step_of_stands (h : f.Stands e) (hc : isNameChar c = false ∧ c ≠ '.') :
    step ⟨outer, members, f⟩ c = afterOperand ⟨outer, members, f⟩ e c := by
  cases h with
  | name n => rw [step]; simp [hc]
  | qualified l n => rw [step]; simp [hc]
  | complete e => rfl

/-- After a whole operand only an operator, a bracket or a gap can follow. -/
theorem step_of_ends (h : f.Ends e) (hc : isNameChar c = false ∧ c ≠ '.') (hb : c ≠ '[')
    (hq : c ≠ '?') : step ⟨outer, members, f⟩ c = afterGap ⟨outer, members, f⟩ e c := by
  cases h with
  | stands h => rw [step_of_stands _ _ h hc, afterOperand, if_neg hb, if_neg hq]
  | gap h =>
    subst h
    rfl

/-! ### The parts of an expression -/

/-- Blanks before an operand are skipped. -/
theorem takes_blanks (hw : Blank w) :
    take? ⟨outer, members, .operand⟩ w = some ⟨outer, members, .operand⟩ := by
  induction w with
  | nil => rfl
  | cons c rest ih =>
    rw [Blank, List.forall_mem_cons] at hw
    rw [take?_cons, step, if_pos hw.1]
    exact ih hw.2

/-- Blanks after an operand leave it as it is. -/
theorem takes_gap (hw : Blank w) : ∀ {f : Focus}, f.Ends e →
    ∃ g, g.Ends e ∧ take? ⟨outer, members, f⟩ w = some ⟨outer, members, g⟩ := by
  induction w with
  | nil => exact fun hf => ⟨_, hf, rfl⟩
  | cons c rest ih =>
    intro f hf
    rw [Blank, List.forall_mem_cons] at hw
    have hc := isNameChar_of_isBlank hw.1
    have hno (d : Char) (hd : Text.isBlank d = false) : c ≠ d := fun h => by
      rw [h, hd] at hw
      cases hw.1
    have hstep := step_of_ends outer members hf hc (hno _ rfl) (hno _ rfl)
    rw [afterGap, if_pos hw.1] at hstep
    obtain ⟨g, hg, htake⟩ := ih hw.2 (f := .gap e) (.gap rfl)
    refine ⟨g, hg, ?_⟩
    rw [take?_cons, hstep]
    exact htake

/-- The rest of a name. -/
theorem takes_name (hn : ∀ c ∈ n, isNameChar c) (read : List Char) :
    take? ⟨outer, members, .name read⟩ n = some ⟨outer, members, .name (read ++ n)⟩ := by
  induction n generalizing read with
  | nil => rw [take?_nil, List.append_nil]
  | cons c rest ih =>
    rw [List.forall_mem_cons] at hn
    have hstep : step ⟨outer, members, .name read⟩ c = some ⟨outer, members, .name (read ++ [c])⟩ :=
      if_pos hn.1
    rw [take?_cons, hstep, Option.bind_some, ih hn.2, List.append_assoc]
    rfl

/-- The rest of a name after a dot. -/
theorem takes_qualified (hn : ∀ c ∈ n, isNameChar c) (library read : List Char) :
    take? ⟨outer, members, .qualified library read⟩ n =
      some ⟨outer, members, .qualified library (read ++ n)⟩ := by
  induction n generalizing read with
  | nil => rw [take?_nil, List.append_nil]
  | cons c rest ih =>
    rw [List.forall_mem_cons] at hn
    have hstep : step ⟨outer, members, .qualified library read⟩ c =
        some ⟨outer, members, .qualified library (read ++ [c])⟩ := if_pos hn.1
    rw [take?_cons, hstep, Option.bind_some, ih hn.2, List.append_assoc]
    rfl

/-- A name is taken where an operand is due. -/
theorem takes_first_name (hn : IsName n) :
    take? ⟨outer, members, .operand⟩ n = some ⟨outer, members, .name n⟩ := by
  obtain ⟨hne, hall⟩ := hn
  obtain ⟨c, rest, rfl⟩ := List.exists_cons_of_ne_nil hne
  rw [List.forall_mem_cons] at hall
  have hb : ¬ Text.isBlank c := fun h => by
    rw [(isNameChar_of_isBlank h).1] at hall
    cases hall.1
  have hp : c ≠ '(' := by
    rintro rfl
    cases hall.1
  rw [take?_cons, step, if_neg hb, if_neg hp, if_pos hall.1]
  exact takes_name _ _ hall.2 [c]

/-- A point and a name are taken after the name of a library. -/
theorem takes_second_name (hn : IsName n) (library : List Char) :
    take? ⟨outer, members, .name library⟩ ('.' :: n) =
      some ⟨outer, members, .qualified library n⟩ := by
  obtain ⟨hne, hall⟩ := hn
  obtain ⟨c, rest, rfl⟩ := List.exists_cons_of_ne_nil hne
  rw [List.forall_mem_cons] at hall
  have hdot : step ⟨outer, members, .name library⟩ '.' = some ⟨outer, members, .dot library⟩ := rfl
  have hfirst : step ⟨outer, members, .dot library⟩ c =
      some ⟨outer, members, .qualified library [c]⟩ := if_pos hall.1
  rw [take?_cons, hdot, Option.bind_some, take?_cons, hfirst, Option.bind_some]
  exact takes_qualified _ _ hall.2 library [c]

end

mutual

/-- The text of an operand is taken from wherever one may begin. -/
theorem takes_operand : ∀ {cs : List Char} {e : Expr}, Operand cs e →
    ∀ (outer : List (List Expr)) (members : List Expr), ∃ f : Focus, f.Stands e ∧
      take? ⟨outer, members, .operand⟩ cs = some ⟨outer, members, f⟩
  | _, _, .name hn, outer, members => ⟨_, .name _, takes_first_name _ _ hn⟩
  | _, _, .qualified hl hn, outer, members =>
    ⟨_, .qualified _ _, take?_append (takes_first_name _ _ hl) (takes_second_name _ _ hn _)⟩
  | _, _, .group (w := w) (v := v) hw hm hv, outer, members => by
    obtain ⟨front, last, f, rfl, hf, htake⟩ := takes_members hm (members :: outer) []
    obtain ⟨g, hg, hgap⟩ := takes_gap (members :: outer) ([] ++ front) hv (.stands hf)
    have hclose := step_of_ends (members :: outer) ([] ++ front) (c := ')') hg
      (by decide) (by decide) (by decide)
    refine ⟨_, .complete _, ?_⟩
    have hopen : take? ⟨outer, members, .operand⟩ ('(' :: w) = some ⟨members :: outer, [], .operand⟩ :=
      takes_blanks _ _ hw
    exact take?_append (take?_append (take?_append hopen htake) hgap) (take?_singleton hclose)
  | _, _, .array hd, outer, members => by
    obtain ⟨f, hf, htake⟩ := takes_operand hd outer members
    refine ⟨_, .complete _, take?_append htake ?_⟩
    rw [take?_cons, step_of_stands _ _ hf (by decide)]
    rfl
  | _, _, .optional hd, outer, members => by
    obtain ⟨f, hf, htake⟩ := takes_operand hd outer members
    refine ⟨_, .complete _, take?_append htake ?_⟩
    rw [take?_cons, step_of_stands _ _ hf (by decide)]
    rfl

/-- The text of alternatives is taken up to the last one, which is left as an operand. -/
theorem takes_members : ∀ {cs : List Char} {es : List Expr}, Members cs es →
    ∀ (outer : List (List Expr)) (members : List Expr), ∃ (front : List Expr) (last : Expr)
      (f : Focus), es = front ++ [last] ∧ f.Stands last ∧
        take? ⟨outer, members, .operand⟩ cs = some ⟨outer, members ++ front, f⟩
  | _, _, .one hd, outer, members => by
    obtain ⟨f, hf, htake⟩ := takes_operand hd outer members
    exact ⟨[], _, f, rfl, hf, by rw [htake, List.append_nil]⟩
  | _, _, .more hm hw hv hd, outer, members => by
    obtain ⟨front, last, f, rfl, hf, htake⟩ := takes_members hm outer members
    obtain ⟨g, hg, hgap⟩ := takes_gap outer (members ++ front) hw (.stands hf)
    have hbar := step_of_ends outer (members ++ front) (c := '|') hg
      (by decide) (by decide) (by decide)
    obtain ⟨f', hf', htake'⟩ := takes_operand hd outer (members ++ front ++ [last])
    refine ⟨front ++ [last], _, f', rfl, hf', ?_⟩
    rw [← List.append_assoc]
    refine take?_append (take?_append (take?_append htake hgap) ?_) htake'
    rw [take?_cons, hbar]
    exact takes_blanks _ _ hv

end

end Reader

/-! ## The parser and its grammar -/

/-- What the grammar derives is read. -/
theorem parse_of_derives {text : String} {e : Expr} (h : Derives text.toList e) :
    parse text = .ok e := by
  generalize hcs : text.toList = cs at h
  cases h with
  | mk hw hm hv =>
    obtain ⟨front, last, f, rfl, hf, htake⟩ := Reader.takes_members hm [] []
    obtain ⟨g, hg, hgap⟩ := Reader.takes_gap [] ([] ++ front) hv (.stands hf)
    rw [parse, hcs]
    refine Reader.run_of_take? _ 0 (Reader.take?_append (Reader.take?_append ?_ htake) hgap) ?_
    · exact Reader.takes_blanks _ _ hw
    · rw [Reader.finish?]
      rcases hg with (_ | _ | _) | rfl <;> rfl

/-- A text is read as a tree exactly when the grammar derives the tree from it. It derives one tree
at most. -/
theorem parse_iff_derives (text : String) :
    (∀ e, parse text = .ok e ↔ Derives text.toList e) ∧
      ∀ e f, Derives text.toList e → Derives text.toList f → e = f := by
  refine ⟨fun e => ⟨fun h => ?_, parse_of_derives⟩, fun e f he hf => ?_⟩
  · exact Reader.reads_start.derives_of_run text.toList h
  · exact Except.ok.inj ((parse_of_derives he).symm.trans (parse_of_derives hf))

end RamlTypes.Expr
