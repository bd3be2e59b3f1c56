import Console.Message.Basic

/-! # Messages without identities

    What a message shows does not depend on which instances its parameters share. Taking
    the identities out of the parameters first and preparing the message then gives the
    message without its identities (`ResolvedRecord.message_content`), so parameters of the
    same content make messages of the same content (`ResolvedRecord.content_message_congr`).

    Along the way, every step of formatting commutes with `content`.
-/

namespace Console

/-! ### Parameters -/

namespace Parameter

@[simp] theorem display_content (p : Parameter) : p.content.display = p.display := by
  cases p <;> rfl

@[simp] theorem text?_content (p : Parameter) : p.content.text? = p.text? := by
  cases p <;> rfl

@[simp] theorem integerText_content (p : Parameter) : p.content.integerText = p.integerText := by
  cases p <;> rfl

@[simp] theorem floatText_content (places : Option Nat) (p : Parameter) :
    p.content.floatText places = p.floatText places := by
  cases p <;> rfl

theorem map_display_content (parameters : List Parameter) :
    (parameters.map content).map display = parameters.map display := by
  rw [List.map_map]
  exact List.map_congr_left fun p _ => p.display_content

end Parameter

theorem appendTexts_content (text : String) (parameters : List Parameter) :
    appendTexts text (parameters.map Parameter.content) = appendTexts text parameters := by
  unfold appendTexts
  rw [List.foldl_map]
  simp only [Parameter.display_content]

/-! ### Segments -/

namespace Segments

/-- The segments without identities. -/
def content (s : Segments) : Segments :=
  { s with parts := s.parts.map fun part => (part.1.content, part.2) }

theorem flush_content (s : Segments) : s.content.flush = s.flush.content := by
  unfold flush
  by_cases h : s.current.isEmpty
  · simp [content, h]
  · simp [content, h, Parameter.content]

theorem setStyle_content (s : Segments) (style : String) :
    s.content.setStyle style = (s.setStyle style).content := by
  simp only [setStyle, flush_content]
  rfl

theorem pushParameter_content (s : Segments) (p : Parameter) :
    s.content.pushParameter p.content = (s.pushParameter p).content := by
  simp only [pushParameter, flush_content]
  simp [content]

theorem apply_content (s : Segments) (d : Directive) (argument : Parameter) :
    s.content.apply d argument.content = (s.apply d argument).content := by
  unfold apply
  cases d.conversion with
  | style => rw [Parameter.text?_content]; exact setStyle_content s _
  | text => rw [Parameter.display_content]; rfl
  | integer => rw [Parameter.integerText_content]; rfl
  | float => rw [Parameter.floatText_content]; rfl
  | value =>
    cases argument with
    | front shared => exact pushParameter_content s (.front shared)
    | _ => rfl

/-- Filling in a template commutes with taking out identities. -/
theorem fill_content (s : Segments) (pieces : List Piece) (arguments : List Parameter) :
    s.content.fill pieces (arguments.map Parameter.content) =
      ((s.fill pieces arguments).1.content, (s.fill pieces arguments).2.map Parameter.content) := by
  -- each piece adds to the segments and may take an argument, so both are generalized
  induction pieces generalizing s arguments with
  | nil => rfl
  | cons piece rest ih =>
    cases piece with
    | char c => exact ih (s.push c.toString) arguments
    | percent => exact ih (s.push "%") arguments
    | directive d =>
      by_cases husable : d.isUsable
      · cases arguments with
        | nil =>
          simp only [fill, husable, if_true, List.map_nil]
          exact ih (s.push (String.ofList d.source)) []
        | cons argument arguments =>
          simp only [fill, husable, if_true, List.map_cons, apply_content]
          exact ih (s.apply d argument) arguments
      · simp only [fill, husable, if_false, Bool.false_eq_true]
        exact ih (s.push (String.ofList d.source)) arguments

end Segments

/-! ### Formatted arguments -/

namespace Formatted

/-- The formatted arguments without identities. -/
def content (f : Formatted) : Formatted :=
  { f with parameters := f.parameters.map Parameter.content }

theorem finish_content (s : Segments) : s.content.finish = s.finish.content := by
  unfold Segments.finish
  rw [Segments.flush_content]
  simp [content, Segments.content, Function.comp_def]

theorem plain_content (parameters : List Parameter) :
    plain (parameters.map Parameter.content) = (plain parameters).content := by
  unfold plain content
  rw [Parameter.map_display_content]

theorem preStyled_content (parameters : List Parameter) (styles : List String) :
    preStyled (parameters.map Parameter.content) styles = (preStyled parameters styles).content := by
  unfold preStyled content
  simp only [← List.map_take, ← List.map_drop, Parameter.map_display_content, appendTexts_content]

theorem expand_content (template : String) (arguments : List Parameter) :
    expand template (arguments.map Parameter.content) = (expand template arguments).content := by
  have hfill := Segments.fill_content {} (Template.scan template.toList) arguments
  have hstart : ({} : Segments).content = {} := rfl
  rw [hstart] at hfill
  unfold expand
  rw [hfill]
  simp only [finish_content, appendTexts_content]
  simp [content]

theorem ofArguments_content (parameters : List Parameter) :
    ofArguments (parameters.map Parameter.content) = (ofArguments parameters).content := by
  cases parameters with
  | nil => exact plain_content []
  | cons first rest =>
    cases first with
    | text template =>
      simp only [List.map_cons, Parameter.content, ofArguments]
      by_cases htemplate : Template.isTemplate template
      · rw [if_pos htemplate, if_pos htemplate]
        exact expand_content template rest
      · rw [if_neg htemplate, if_neg htemplate]
        exact plain_content (.text template :: rest)
    | _ => exact plain_content (_ :: rest)

end Formatted

/-! ### Messages -/

/-- The message without the identities of its fronts. -/
def Message.content (m : Message) : Message :=
  { m with parameters := m.parameters.map Parameter.content }

namespace ResolvedRecord

/-- The resolved record without the identities of its fronts. -/
def erased (packet : ResolvedRecord) : ResolvedRecord :=
  { packet with arguments := packet.arguments.map Parameter.content }

theorem withoutName_content (name : String) (parameters : List Parameter) :
    withoutName name (parameters.map Parameter.content) =
      (withoutName name parameters).map Parameter.content := by
  cases parameters with
  | nil => rfl
  | cons first rest =>
    cases first with
    | text value =>
      simp only [List.map_cons, Parameter.content, withoutName]
      split <;> rfl
    | _ => rfl

theorem formatArguments_content (packet : ResolvedRecord) :
    packet.erased.formatArguments = packet.formatArguments.content := by
  unfold formatArguments
  simp only [erased, Formatted.preStyled_content, Formatted.ofArguments_content,
    Formatted.plain_content]
  split
  · rfl
  · split <;> rfl

/-- The body without the identities of its fronts. -/
def bodyContent (body : Body) : Body := { body with formatted := body.formatted.content }

theorem timed_content (packet : ResolvedRecord) (timer : Timer) (running : Formatted) :
    packet.erased.timed timer running.content = bodyContent (packet.timed timer running) := by
  unfold timed
  cases timer.error with
  | none => rfl
  | some => rfl

theorem content_erased (packet : ResolvedRecord) :
    packet.erased.content = bodyContent packet.content := by
  obtain ⟨record, arguments⟩ := packet
  have hkind : (⟨record, arguments⟩ : ResolvedRecord).erased.record.kind = record.kind := rfl
  unfold content
  rw [hkind]
  cases record.kind with
  | bare level =>
    cases level with
    | clear => rfl
    | _ => simp only [formatArguments_content]; rfl
  | error | assert | trace => simp only [formatArguments_content]; rfl
  | count | countReset => rfl
  | time timer | timeEnd timer => exact timed_content ⟨record, arguments⟩ timer (.ofText _)
  | timeLog timer =>
    let extra := Formatted.plain (withoutName timer.name arguments)
    simp only [erased, withoutName_content, Formatted.plain_content]
    exact timed_content ⟨record, arguments⟩ timer
      { extra with text := joined (timer.name ++ ": " ++ timer.elapsed) extra.text }

/-- Preparing a message commutes with taking out identities. -/
theorem message_content (packet : ResolvedRecord) (id : String) :
    packet.erased.message id = (packet.message id).content := by
  unfold message
  simp only [content_erased]
  rfl

/-- Parameters of the same content make messages of the same content. -/
theorem content_message_congr {x y : ResolvedRecord} (h : x.erased = y.erased) (id : String) :
    (x.message id).content = (y.message id).content := by
  rw [← message_content, ← message_content, h]

end ResolvedRecord

end Console
