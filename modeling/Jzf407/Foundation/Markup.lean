import Jzf407.Foundation.Text

/-!
# Markup, and templates for it

A reader of markup: text, start tags with attributes in single quotes, end tags (`Token`). What else
there may be (comments, other quotes, elements of raw text) it does not know, and reads as `bad`. So
a statement about what is read of a page says, too, that nothing else is on it.

The reader is a machine (`Mode`, `next`) whose run over a text gives its `tokens`. It works on
symbols that stand for characters or for nothing. So it reads templates too: markup over characters
and holes. `tokens_fill` says what a template is good for. If it is read without fault and its holes
are filled with texts that have no quote and no opening bracket (`Inert`), then what is read of the
result is what is read of the template, with the holes filled. Whatever is written there, the tags
remain what they were.

Two readings of the tokens respect this:

* `forms`: the forms with their controls, as a browser collects them to submit one of them
  (`Form.controls`); `forms_fill`.
* `byId`: the element with a given id, with its text, elements within elements counted (`within`);
  `byId_fill`. Here no id may have a hole in it.

A page of which only the holes depend on data is thus read once, as a closed template, by
computation, and then filled.
-/

namespace Foundation

namespace Markup

universe u v

/-- What markup consists of. -/
inductive Token (α : Type u)
  | text (s : List α)
  | start (name : Str) (attrs : List (Str × List α))
  | close (name : Str)
  | bad
  deriving DecidableEq

/-- What the reader is in the middle of. -/
inductive Mode (α : Type u)
  | data (text : List α)
  | tagOpen
  | endTag (name : Str)
  | tagName (name : Str)
  | beforeAttr (name : Str) (attrs : List (Str × List α))
  | attrName (name : Str) (attrs : List (Str × List α)) (attr : Str)
  | beforeValue (name : Str) (attrs : List (Str × List α)) (attr : Str)
  | value (name : Str) (attrs : List (Str × List α)) (attr : Str) (val : List α)
  | afterValue (name : Str) (attrs : List (Str × List α))
  | bad

variable {α : Type u} {β : Type v}

namespace Mode

/-- The reader does not know this. -/
def fault : Mode α × List (Token α) := (bad, [.bad])

/-- A character within a tag, outside the values of attributes. -/
def nextChar : Mode α → Char → Mode α × List (Token α)
  | tagOpen, c =>
      if c = '/' then (endTag [], [])
      else if c.isAlpha then (tagName [c], [])
      else fault
  | endTag name, c =>
      if c = '>' then (data [], [.close name])
      else if c.isAlphanum then (endTag (name ++ [c]), [])
      else fault
  | tagName name, c =>
      if c = '>' then (data [], [.start name []])
      else if c = ' ' then (beforeAttr name [], [])
      else if c.isAlphanum then (tagName (name ++ [c]), [])
      else fault
  | beforeAttr name attrs, c =>
      if c = '>' then (data [], [.start name attrs])
      else if c = ' ' then (beforeAttr name attrs, [])
      else if c.isAlpha then (attrName name attrs [c], [])
      else fault
  | attrName name attrs attr, c =>
      if c = '=' then (beforeValue name attrs attr, [])
      else if c = '>' then (data [], [.start name (attrs ++ [(attr, [])])])
      else if c = ' ' then (beforeAttr name (attrs ++ [(attr, [])]), [])
      else if c.isAlpha || c = '-' then (attrName name attrs (attr ++ [c]), [])
      else fault
  | beforeValue name attrs attr, c =>
      if c = '\'' then (value name attrs attr [], []) else fault
  | afterValue name attrs, c =>
      if c = '>' then (data [], [.start name attrs])
      else if c = ' ' then (beforeAttr name attrs, [])
      else fault
  | _, _ => (bad, [])

/-- **One symbol.** Where text is read, only the character that ends it counts. -/
def next (code : α → Option Char) : Mode α → α → Mode α × List (Token α)
  | data text, a =>
      if code a = some '<' then (tagOpen, [.text text]) else (data (text ++ [a]), [])
  | value name attrs attr val, a =>
      if code a = some '\'' then (afterValue name (attrs ++ [(attr, val)]), [])
      else (value name attrs attr (val ++ [a]), [])
  | m, a =>
      match code a with
      | some c => m.nextChar c
      | none => fault

/-- The end of the markup. -/
def finish : Mode α → List (Token α)
  | data text => [.text text]
  | bad => []
  | _ => [.bad]

end Mode

/-- **The tokens** that the reader finds. -/
def tokens (code : α → Option Char) (m : Mode α) : List α → List (Token α)
  | [] => m.finish
  | a :: s =>
      match m.next code a with
      | (m', out) => out ++ tokens code m' s

/-! ### Forms and elements -/

/-- The value of an attribute. -/
def attr (name : Str) (attrs : List (Str × List α)) : Option (List α) :=
  (attrs.find? fun p => p.1 == name).map Prod.snd

/-- A form: its attributes, and those of its inputs. -/
structure Form (α : Type u) where
  attrs : List (Str × List α)
  inputs : List (List (Str × List α))

/-- **The forms**, after the beginning of one or not. -/
def forms : Option (Form α) → List (Token α) → List (Form α)
  | open?, [] => open?.toList
  | none, .start name attrs :: ts =>
      if name = "form".toList then forms (some ⟨attrs, []⟩) ts else forms none ts
  | some form, .start name attrs :: ts =>
      if name = "input".toList then forms (some { form with inputs := form.inputs ++ [attrs] }) ts
      else forms (some form) ts
  | some form, .close name :: ts =>
      if name = "form".toList then form :: forms none ts else forms (some form) ts
  | open?, _ :: ts => forms open? ts

/-- The names and values that a form has before it is edited. -/
def Form.controls (form : Form α) : List (List α × List α) :=
  form.inputs.filterMap fun attrs =>
    (attr "name".toList attrs).map fun name => (name, (attr "value".toList attrs).getD [])

/-- The text up to the end of an element, `depth` further elements being open in it. -/
def within : ℕ → List (Token α) → List α
  | _, [] => []
  | depth, .text s :: ts => s ++ within depth ts
  | depth, .start _ _ :: ts => within (depth + 1) ts
  | 0, .close _ :: _ => []
  | depth + 1, .close _ :: ts => within depth ts
  | depth, .bad :: ts => within depth ts

/-- **The element with an id**: its attributes and its text. -/
def byId [DecidableEq α] (id : List α) : List (Token α) → Option (List (Str × List α) × List α)
  | [] => none
  | .start _ attrs :: ts =>
      if attr "id".toList attrs = some id then some (attrs, within 0 ts) else byId id ts
  | _ :: ts => byId id ts

/-- The ids of the elements. -/
def ids (ts : List (Token α)) : List (List α) :=
  ts.filterMap fun
    | .start _ attrs => attr "id".toList attrs
    | _ => none

/-! ### Templates -/

/-- A text that ends neither a text nor the value of an attribute. -/
def Inert (t : Str) : Prop := '<' ∉ t ∧ '\'' ∉ t

instance (t : Str) : Decidable (Inert t) := inferInstanceAs (Decidable (_ ∧ _))

section Template

variable {η : Type u} (v : η → Str)

/-- A symbol of a template is a character, or a hole that stands for none. -/
def code : Char ⊕ η → Option Char := Sum.elim some fun _ => none

/-- Fill the holes. -/
def fill (s : List (Char ⊕ η)) : Str := s.flatMap (Sum.elim (fun c => [c]) v)

@[simp]
theorem fill_nil : fill v [] = [] := rfl

@[simp]
theorem fill_append (s t : List (Char ⊕ η)) : fill v (s ++ t) = fill v s ++ fill v t :=
  List.flatMap_append

@[simp]
theorem fill_inl (c : Char) : fill v [.inl c] = [c] := rfl

@[simp]
theorem fill_inr (h : η) : fill v [.inr h] = v h := List.append_nil (v h)

theorem fill_cons_inl (c : Char) (s : List (Char ⊕ η)) :
    fill v (.inl c :: s) = c :: fill v s := rfl

theorem fill_cons_inr (h : η) (s : List (Char ⊕ η)) :
    fill v (.inr h :: s) = v h ++ fill v s := rfl

/-- A text without holes is itself. -/
theorem fill_map_inl (s : Str) : fill v (s.map .inl) = s := by
  induction s with
  | nil => rfl
  | cons c s ih => rw [List.map_cons, fill_cons_inl, ih]

/-- A template without holes is a text. -/
theorem map_inl_fill {s : List (Char ⊕ η)} (h : ∀ a ∈ s, a.isLeft = true) :
    (fill v s).map .inl = s := by
  induction s with
  | nil => rfl
  | cons a s ih =>
    obtain ⟨ha, hs⟩ := List.forall_mem_cons.mp h
    obtain ⟨c, rfl⟩ := Sum.isLeft_iff.mp ha
    rw [fill_cons_inl, List.map_cons, ih hs]

/-- Fill the values of attributes. -/
def fillAttrs (attrs : List (Str × List (Char ⊕ η))) : List (Str × Str) :=
  attrs.map fun p => (p.1, fill v p.2)

@[simp]
theorem fillAttrs_nil : fillAttrs v [] = [] := rfl

@[simp]
theorem fillAttrs_append (s t : List (Str × List (Char ⊕ η))) :
    fillAttrs v (s ++ t) = fillAttrs v s ++ fillAttrs v t := List.map_append

@[simp]
theorem fillAttrs_singleton (name : Str) (val : List (Char ⊕ η)) :
    fillAttrs v [(name, val)] = [(name, fill v val)] := rfl

theorem attr_fillAttrs (name : Str) (attrs : List (Str × List (Char ⊕ η))) :
    attr name (fillAttrs v attrs) = (attr name attrs).map (fill v) := by
  rw [attr, attr, fillAttrs, List.find?_map, Option.map_map, Option.map_map]
  rfl

/-- Fill a token. -/
def Token.fill : Token (Char ⊕ η) → Token Char
  | text s => .text (Markup.fill v s)
  | start name attrs => .start name (fillAttrs v attrs)
  | close name => .close name
  | bad => .bad

/-- Fill what has been read so far. -/
def Mode.fill : Mode (Char ⊕ η) → Mode Char
  | data text => .data (Markup.fill v text)
  | tagOpen => .tagOpen
  | endTag name => .endTag name
  | tagName name => .tagName name
  | beforeAttr name attrs => .beforeAttr name (fillAttrs v attrs)
  | attrName name attrs attr => .attrName name (fillAttrs v attrs) attr
  | beforeValue name attrs attr => .beforeValue name (fillAttrs v attrs) attr
  | value name attrs attr val => .value name (fillAttrs v attrs) attr (Markup.fill v val)
  | afterValue name attrs => .afterValue name (fillAttrs v attrs)
  | bad => .bad

/-- Within a tag the reader does not look at what it has read. -/
theorem Mode.nextChar_fill (m : Mode (Char ⊕ η)) (c : Char) :
    (m.fill v).nextChar c = ((m.nextChar c).1.fill v, (m.nextChar c).2.map (Token.fill v)) := by
  cases m with
  | data | value | bad => rfl
  | _ =>
    simp only [Mode.fill, nextChar]
    split_ifs <;> simp [Token.fill, fault]

theorem Mode.next_fill_inl (m : Mode (Char ⊕ η)) (c : Char) :
    (m.fill v).next some c =
      ((m.next code (.inl c)).1.fill v, (m.next code (.inl c)).2.map (Token.fill v)) := by
  cases m with
  | data text =>
    by_cases hc : c = '<' <;> simp [Mode.fill, Token.fill, next, code, hc]
  | value name attrs attr val =>
    by_cases hc : c = '\'' <;> simp [Mode.fill, next, code, hc]
  | tagOpen => exact nextChar_fill v tagOpen c
  | endTag name => exact nextChar_fill v (endTag name) c
  | tagName name => exact nextChar_fill v (tagName name) c
  | beforeAttr name attrs => exact nextChar_fill v (beforeAttr name attrs) c
  | attrName name attrs attr => exact nextChar_fill v (attrName name attrs attr) c
  | beforeValue name attrs attr => exact nextChar_fill v (beforeValue name attrs attr) c
  | afterValue name attrs => exact nextChar_fill v (afterValue name attrs) c
  | bad => exact nextChar_fill v bad c

theorem Mode.finish_fill (m : Mode (Char ⊕ η)) :
    (m.fill v).finish = m.finish.map (Token.fill v) := by
  cases m <;> rfl

theorem tokens_cons {code : α → Option Char} (m : Mode α) (a : α) (s : List α) :
    tokens code m (a :: s) = (m.next code a).2 ++ tokens code (m.next code a).1 s := rfl

/-- Text that does not end is read on. -/
theorem tokens_data_append {t : Str} (ht : '<' ∉ t) (text s : Str) :
    tokens some (.data text) (t ++ s) = tokens some (.data (text ++ t)) s := by
  induction t generalizing text with
  | nil => rw [List.nil_append, List.append_nil]
  | cons c t ih =>
    obtain ⟨hc, ht⟩ := not_or.mp (mt List.mem_cons.mpr ht)
    have hne : ¬ some c = some '<' := fun h => hc (Option.some.inj h).symm
    rw [List.cons_append, tokens_cons, Mode.next, if_neg hne, List.nil_append, ih ht,
      List.append_assoc, List.singleton_append]

theorem tokens_value_append {t : Str} (ht : '\'' ∉ t) (name : Str) (attrs : List (Str × Str))
    (attr val s : Str) :
    tokens some (.value name attrs attr val) (t ++ s) =
      tokens some (.value name attrs attr (val ++ t)) s := by
  induction t generalizing val with
  | nil => rw [List.nil_append, List.append_nil]
  | cons c t ih =>
    obtain ⟨hc, ht⟩ := not_or.mp (mt List.mem_cons.mpr ht)
    have hne : ¬ some c = some '\'' := fun h => hc (Option.some.inj h).symm
    rw [List.cons_append, tokens_cons, Mode.next, if_neg hne, List.nil_append, ih ht,
      List.append_assoc, List.singleton_append]

/-- A hole is read in text and in the value of an attribute only. -/
theorem Mode.next_inr {m : Mode (Char ⊕ η)} {h : η} (hm : .bad ∉ (m.next code (.inr h)).2) :
    (∃ text, m = data text) ∨ ∃ name attrs attr val, m = value name attrs attr val := by
  cases m with
  | data text => exact .inl ⟨text, rfl⟩
  | value name attrs attr val => exact .inr ⟨name, attrs, attr, val, rfl⟩
  | _ => exact absurd List.mem_cons_self hm

/-- **Filling a template** fills its tokens. -/
theorem tokens_fill (hv : ∀ h, Inert (v h)) {m : Mode (Char ⊕ η)}
    {s : List (Char ⊕ η)} (hs : .bad ∉ tokens code m s) :
    tokens some (m.fill v) (fill v s) = (tokens code m s).map (Token.fill v) := by
  induction s generalizing m with
  | nil => exact m.finish_fill v
  | cons a s ih =>
    rw [tokens_cons, List.mem_append, not_or] at hs
    rw [tokens_cons, List.map_append, ← ih hs.2]
    cases a with
    | inl c => rw [fill_cons_inl, tokens_cons, m.next_fill_inl]
    | inr h =>
      obtain ⟨hlt, hquote⟩ := hv h
      rw [fill_cons_inr]
      rcases Mode.next_inr hs.1 with ⟨text, rfl⟩ | ⟨name, attrs, attr, val, rfl⟩
      · rw [Mode.fill, tokens_data_append hlt]
        simp [Mode.next, code, Mode.fill]
      · rw [Mode.fill, tokens_value_append hquote]
        simp [Mode.next, code, Mode.fill]

/-! ### Reading a template that has been filled -/

/-- Fill a form. -/
def Form.fill (form : Form (Char ⊕ η)) : Form Char where
  attrs := fillAttrs v form.attrs
  inputs := form.inputs.map (fillAttrs v)

/-- **The forms of a filled template** are those of the template, filled. -/
theorem forms_fill (form : Option (Form (Char ⊕ η))) (ts : List (Token (Char ⊕ η))) :
    forms (form.map (Form.fill v)) (ts.map (Token.fill v)) =
      (forms form ts).map (Form.fill v) := by
  induction ts generalizing form with
  | nil => cases form <;> rfl
  | cons t ts ih =>
    have hinput : ∀ (form : Form (Char ⊕ η)) attrs,
        some { form.fill v with inputs := (form.fill v).inputs ++ [fillAttrs v attrs] } =
          (some { form with inputs := form.inputs ++ [attrs] }).map (Form.fill v) := by
      intro form attrs
      simp [Form.fill]
    -- within a form or not; names of tags have no holes, so both readings take the same branch
    cases form with
    | none =>
      cases t with
      | start name attrs =>
        simp only [Option.map_none, List.map_cons, Token.fill, forms]
        split_ifs
        · exact ih (some ⟨attrs, []⟩)
        · exact ih none
      | text | close | bad => exact ih none
    | some form =>
      cases t with
      | start name attrs =>
        simp only [Option.map_some, List.map_cons, Token.fill, forms]
        split_ifs
        · rw [hinput]
          exact ih _
        · exact ih (some form)
      | close name =>
        simp only [Option.map_some, List.map_cons, Token.fill, forms]
        split_ifs
        · rw [List.map_cons]
          exact congrArg _ (ih none)
        · exact ih (some form)
      | text | bad => exact ih (some form)

theorem Form.controls_fill (form : Form (Char ⊕ η)) :
    (form.fill v).controls = form.controls.map fun p => (Markup.fill v p.1, Markup.fill v p.2) := by
  rw [controls, controls, Form.fill, List.filterMap_map, List.map_filterMap]
  refine List.filterMap_congr fun attrs _ => ?_
  rw [Function.comp_apply, attr_fillAttrs, attr_fillAttrs, Option.map_map, Option.map_map]
  cases attr "value".toList attrs <;> rfl

theorem within_fill (depth : ℕ) (ts : List (Token (Char ⊕ η))) :
    within depth (ts.map (Token.fill v)) = fill v (within depth ts) := by
  induction ts generalizing depth with
  | nil => cases depth <;> rfl
  | cons t ts ih =>
    cases t with
    | text s =>
      simp only [List.map_cons, Token.fill, within, fill_append, ih]
    | start name attrs => simp only [List.map_cons, Token.fill, within, ih]
    | close name => cases depth <;> simp [Token.fill, within, ih]
    | bad => simp only [List.map_cons, Token.fill, within, ih]

variable [DecidableEq η]

/-- **An element of a filled template** is found by its id, if no id has a hole in it. -/
theorem byId_fill (id : Str) {ts : List (Token (Char ⊕ η))}
    (hids : ∀ x ∈ ids ts, ∀ a ∈ x, a.isLeft = true) :
    byId id (ts.map (Token.fill v)) =
      (byId (id.map .inl) ts).map fun p => (fillAttrs v p.1, fill v p.2) := by
  induction ts with
  | nil => rfl
  | cons t ts ih =>
    cases t with
    | start name attrs =>
      have hattr := attr_fillAttrs v "id".toList attrs
      rw [List.map_cons, Token.fill, byId, byId, hattr]
      cases hid : attr "id".toList attrs with
      | none =>
        have htail : ids (.start name attrs :: ts) = ids ts := List.filterMap_cons_none hid
        rw [htail] at hids
        rw [Option.map_none, if_neg (Option.some_ne_none id).symm,
          if_neg (Option.some_ne_none _).symm]
        exact ih hids
      | some x =>
        have hcons : ids (.start name attrs :: ts) = x :: ids ts := List.filterMap_cons_some hid
        rw [hcons] at hids
        obtain ⟨hx, htail⟩ := List.forall_mem_cons.mp hids
        -- without holes it is the same text before and after
        have hiff : fill v x = id ↔ x = id.map .inl :=
          ⟨fun h => h ▸ (map_inl_fill v hx).symm, fun h => h ▸ fill_map_inl v id⟩
        simp only [Option.map_some, Option.some.injEq, hiff]
        split_ifs
        · rw [within_fill, Option.map_some]
        · exact ih htail
    | text | close | bad => exact ih hids

end Template

end Markup

end Foundation
