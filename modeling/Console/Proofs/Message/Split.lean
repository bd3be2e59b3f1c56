import Console.Proofs.Message.Parameters

/-! # Templates split at their styles

    A producer may split a template at its styles before it sends a record, and leave the styles
    beside the parts. What a template comes to here can be sent in that form, and reads the same.

    - `Formatted.preStyled_ofArguments`: parts and styles of a template, formatted once more,
    - `ResolvedRecord.message_split`: the message of a record is that of the record which the
      producer has split.
-/

namespace Console

/-! ### Formatted arguments -/

namespace Formatted

/-- Only a template has styles. -/
theorem exists_template_of_styles {arguments : List Parameter}
    (h : (ofArguments arguments).styles ≠ []) :
    ∃ template rest, ofArguments arguments = expand template rest := by
  cases arguments with
  | nil => exact absurd rfl h
  | cons first rest =>
    cases first with
    | text template =>
      by_cases hmarked : Template.Marked template.toList
      · exact ⟨template, rest, ofArguments_of_marked hmarked rest⟩
      · rw [ofArguments_of_not_marked hmarked] at h
        exact absurd rfl h
    | _ => exact absurd rfl h

/-- What a template with styles comes to can be taken for arguments that were split at their
    styles: there are as many styles as parameters that the template shows. -/
theorem preStyled_ofArguments {arguments : List Parameter}
    (h : (ofArguments arguments).styles ≠ []) :
    preStyled (ofArguments arguments).parameters (ofArguments arguments).styles =
      ofArguments arguments := by
  obtain ⟨template, rest, hexpand⟩ := exists_template_of_styles h
  rw [hexpand] at h ⊢
  obtain ⟨parts, -, hparameters, hstyles, htext⟩ := exists_parts_of_styles h
  have hlength : (expand template rest).styles.length = (parts.map Prod.fst).length := by
    rw [hstyles, List.length_map, List.length_map]
  have hhead : (expand template rest).parameters.take (expand template rest).styles.length =
      parts.map Prod.fst := by rw [hparameters, hlength, List.take_left]
  have htail : (expand template rest).parameters.drop (expand template rest).styles.length =
      rest.drop (Template.demand (Template.scan template.toList)) := by
    rw [hparameters, hlength, List.drop_left]
  unfold preStyled
  simp only [hhead, htail, ← htext]

end Formatted

/-! ### Messages -/

namespace ResolvedRecord

/-- A level that expands templates shows the arguments under its own severity. -/
theorem content_of_expands {packet : ResolvedRecord} (h : packet.record.level.expands) :
    packet.content = ⟨packet.formatArguments, packet.record.level.severity⟩ := by
  have hnone : ∀ level ∈ reporting, ¬ level.expands := by decide
  apply content_of_not_reporting
  intro hreporting
  exact hnone _ hreporting h

/-- The record as a producer that splits templates at their styles would have captured it. -/
def split (packet : ResolvedRecord) : ResolvedRecord :=
  let formatted := Formatted.ofArguments packet.arguments
  { record := { packet.record with styles := formatted.styles }, arguments := formatted.parameters }

/-- Whether a template is split at its styles here or by the producer, the message is the same:
    its text with what the level makes of it, its parameters, styles and severity, and all that
    the arguments have no part in. -/
theorem message_split {packet : ResolvedRecord} (hstyles : packet.record.styles = [])
    (hexpands : packet.record.level.expands) (id : String) :
    let formatted := Formatted.ofArguments packet.arguments
    formatted.styles ≠ [] →
      Formatted.preStyled formatted.parameters formatted.styles = formatted ∧
      packet.split.message id = packet.message id := by
  intro formatted hne
  have hsame : Formatted.preStyled formatted.parameters formatted.styles = formatted :=
    Formatted.preStyled_ofArguments hne
  have hlocal : packet.formatArguments = formatted := by
    unfold formatArguments
    simp only [hstyles, hexpands]
    rfl
  have hsplit : packet.split.formatArguments = formatted := by
    -- with styles beside them the parts are not read as a template again
    have hstyled : (!packet.split.record.styles.isEmpty) = true := by
      simpa [split, List.isEmpty_iff] using hne
    unfold formatArguments
    rw [if_pos hstyled]
    exact hsame
  have hcontent : packet.split.content = packet.content := by
    have hexpands' : packet.split.record.level.expands := hexpands
    rw [content_of_expands hexpands, content_of_expands hexpands', hlocal, hsplit]
    rfl
  refine ⟨hsame, ?_⟩
  unfold message
  rw [hcontent]
  rfl

/-- An assertion with two styles, the second of which is empty, and an argument too many. -/
def styledAssertion : ResolvedRecord where
  record := { kind := .assert none }
  arguments := [.text "%cred%cplain %s", .text "color: red", .text "", .text "tail", .bool true]

theorem message_split_styledAssertion :
    styledAssertion.record.styles = [] ∧ styledAssertion.record.level.expands ∧
      (Formatted.ofArguments styledAssertion.arguments).styles = ["color: red", ""] ∧
      styledAssertion.split.message "1" = styledAssertion.message "1" ∧
      (styledAssertion.message "1").text = "Assertion failed: redplain tail true" := by
  have hstyles : (Formatted.ofArguments styledAssertion.arguments).styles = ["color: red", ""] := by
    decide +kernel
  have hne : (Formatted.ofArguments styledAssertion.arguments).styles ≠ [] := by
    rw [hstyles]
    exact List.cons_ne_nil _ _
  obtain ⟨-, hmessage⟩ := @message_split styledAssertion rfl rfl "1" hne
  exact ⟨rfl, rfl, hstyles, hmessage, by decide +kernel⟩

end ResolvedRecord

end Console
