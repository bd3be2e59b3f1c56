import Console.Message.Basic
import Console.Proofs.Message.Expansion

/-! # Parameters of a message

    The parameters of a message are texts and values, and the values (numbers, truth values,
    literals and fronts) are arguments of its record. Formatting leaves arguments out or turns
    them into text; it makes up no value, moves none and shows none twice.

    - `Parameter.values`: the parameters that are no texts,
    - `Formatted.values_ofArguments`, `ResolvedRecord.values_content`: values stay in order
      through a template and through what a level makes of its arguments,
    - `ResolvedRecord.mem_arguments_of_front`: fronts keep their identities,
    - `ResolvedRecord.parameters_in_order`: which parameters a message has.
-/

namespace Console

namespace Parameter

/-- The parameters that are no texts. -/
def values (parameters : List Parameter) : List Parameter :=
  parameters.filter fun p => p.text?.isNone

/-- Of what a template shows, the values are the fronts. -/
theorem values_of_isPart {parameters : List Parameter} (h : ∀ p ∈ parameters, p.IsPart) :
    values parameters = (parameters.filterMap front?).map front := by
  induction parameters with
  | nil => rfl
  | cons p rest ih =>
    obtain ⟨hp, hrest⟩ := List.forall_mem_cons.1 h
    have ih := ih hrest
    rcases hp with ⟨value, -, rfl⟩ | ⟨shared, rfl⟩
    · exact ih
    · exact congrArg (front shared :: ·) ih

end Parameter

open Parameter (values)

/-! ### Formatted arguments -/

namespace Formatted

/-- The values among the parameters of an expanded template are fronts that its directives
    take, and values that it leaves. -/
theorem values_expand (template : String) (arguments : List Parameter) :
    (values (expand template arguments).parameters).Sublist arguments := by
  obtain ⟨parts, hlaid, hparameters, -, -⟩ := exists_parts template arguments
  have hparts : ∀ p ∈ parts.map Prod.fst, p.IsPart := by
    intro p hp
    obtain ⟨part, hmem, rfl⟩ := List.mem_map.1 hp
    exact hlaid.isPart part hmem
  have htaken := Template.sublist_front_fillings (Template.scan template.toList) arguments
  rw [hlaid.shows.fronts, ← Parameter.values_of_isPart hparts] at htaken
  have happend := htaken.append (List.filter_sublist
    (p := fun p : Parameter => p.text?.isNone)
    (l := arguments.drop (Template.demand (Template.scan template.toList))))
  rw [List.take_append_drop] at happend
  rw [hparameters, values, List.filter_append]
  exact happend

theorem values_ofArguments (arguments : List Parameter) :
    (values (ofArguments arguments).parameters).Sublist arguments := by
  unfold ofArguments
  split
  · next template rest =>
    split
    · exact (values_expand template rest).cons _
    · exact List.filter_sublist
  · exact List.filter_sublist

/-- Arguments of which the first is no template are shown as they are. -/
theorem parameters_ofArguments {arguments : List Parameter}
    (h : ∀ template rest, arguments = .text template :: rest → ¬ Template.Marked template.toList) :
    (ofArguments arguments).parameters = arguments := by
  unfold ofArguments
  split
  · next template rest =>
    rw [if_neg fun htemplate => h template rest rfl (Template.isTemplate_iff.1 htemplate)]
    rfl
  · rfl

end Formatted

/-! ### Messages -/

namespace ResolvedRecord

variable {packet : ResolvedRecord}

theorem withoutName_sublist (name : String) (parameters : List Parameter) :
    (withoutName name parameters).Sublist parameters := by
  unfold withoutName
  split
  · split
    · exact List.sublist_cons_self _ _
    · exact List.Sublist.refl _
  · exact List.Sublist.refl _

theorem values_formatArguments (packet : ResolvedRecord) :
    (values packet.formatArguments.parameters).Sublist packet.arguments := by
  unfold formatArguments
  split
  · exact List.filter_sublist
  · split
    · exact Formatted.values_ofArguments packet.arguments
    · exact List.filter_sublist

/-- A timer's message shows what the timer does, or else no arguments. -/
theorem values_timed {timer : Timer} {running : Formatted} {arguments : List Parameter}
    (h : (values running.parameters).Sublist arguments) :
    (values (packet.timed timer running).formatted.parameters).Sublist arguments := by
  unfold timed
  split
  · exact List.nil_sublist _
  · exact h

theorem values_content (packet : ResolvedRecord) :
    (values packet.content.formatted.parameters).Sublist packet.arguments := by
  unfold content
  split
  · exact List.nil_sublist _
  · exact List.nil_sublist _
  · exact values_timed (List.nil_sublist _)
  · exact values_timed (List.nil_sublist _)
  · next timer _ =>
    exact values_timed (List.filter_sublist.trans (withoutName_sublist timer.name packet.arguments))
  · exact List.nil_sublist _
  · exact values_formatArguments packet

/-- The fronts of a message are among the arguments of its record. -/
theorem mem_arguments_of_front {shared : Shared Front} {id : String}
    (h : .front shared ∈ (packet.message id).parameters) : .front shared ∈ packet.arguments :=
  (values_content packet).subset (List.mem_filter.2 ⟨h, rfl⟩)

/-! ### What each level shows -/

/-- A timer with an error has no parameters. -/
theorem parameters_timed_error {timer : Timer} (running : Formatted) (h : timer.error ≠ none) :
    (packet.timed timer running).formatted.parameters = [] := by
  unfold timed
  split
  · rfl
  · next hnone => exact absurd hnone h

theorem parameters_timed {timer : Timer} (running : Formatted) (h : timer.error = none) :
    (packet.timed timer running).formatted.parameters = running.parameters := by
  unfold timed
  rw [h]

/-- Where something else is shown in place of the arguments there are no parameters. -/
theorem parameters_of_silent
    (h : packet.record.level ∈ ([.count, .countReset, .clear, .time, .timeEnd] : List Level)) :
    packet.content.formatted.parameters = [] := by
  have hlevel : packet.record.level = packet.record.kind.level := rfl
  rw [hlevel] at h
  have htimed : ∀ (timer : Timer) (text : String),
      (packet.timed timer (.ofText text)).formatted.parameters = [] := by
    intro timer text
    by_cases herror : timer.error = none
    · rw [parameters_timed _ herror]
      rfl
    · exact parameters_timed_error _ herror
  unfold content
  cases hkind : packet.record.kind with
  | count | countReset => rfl
  | time timer | timeEnd timer => exact htimed timer _
  | bare level =>
    rw [hkind] at h
    cases level with
    | clear => rfl
    | _ => simp [Kind.level, BareLevel.level] at h
  | error | assert | trace | timeLog =>
    rw [hkind] at h
    simp [Kind.level] at h

theorem parameters_of_timer_error {timer : Timer} (htimer : packet.record.kind.timer? = some timer)
    (h : timer.error ≠ none) : packet.content.formatted.parameters = [] := by
  unfold content
  cases hkind : packet.record.kind with
  | time | timeLog | timeEnd =>
    rw [hkind] at htimer
    cases htimer
    exact parameters_timed_error _ h
  | _ =>
    rw [hkind] at htimer
    cases htimer

theorem parameters_of_timeLog {timer : Timer} (hkind : packet.record.kind = .timeLog timer)
    (h : timer.error = none) :
    packet.content.formatted.parameters = withoutName timer.name packet.arguments := by
  unfold content
  rw [hkind]
  exact parameters_timed _ h

/-- The levels that show a counter, a timer or a text of their own. -/
def reporting : List Level := [.count, .countReset, .clear, .time, .timeLog, .timeEnd]

/-- All other levels show their arguments, under their own severity. -/
theorem content_of_not_reporting (h : packet.record.level ∉ reporting) :
    packet.content = ⟨packet.formatArguments, packet.record.level.severity⟩ := by
  have hlevel : packet.record.level = packet.record.kind.level := rfl
  rw [hlevel] at h
  unfold content
  cases hkind : packet.record.kind with
  | bare level =>
    rw [hkind] at h
    cases level with
    | clear => simp [reporting, Kind.level, BareLevel.level] at h
    | _ => rfl
  | error | assert | trace => rfl
  | count | countReset | time | timeLog | timeEnd =>
    rw [hkind] at h
    simp [reporting, Kind.level] at h

/-- Arguments stay as they are where no template is expanded. -/
theorem parameters_formatArguments
    (h : ¬ packet.record.level.expands ∨ packet.record.styles ≠ [] ∨
      ∀ template rest, packet.arguments = .text template :: rest →
        ¬ Template.Marked template.toList) :
    packet.formatArguments.parameters = packet.arguments := by
  unfold formatArguments
  by_cases hstyles : packet.record.styles = []
  · rw [if_neg (by simp [hstyles])]
    split
    · next hexpands =>
      rcases h with h | h | h
      · exact absurd hexpands h
      · exact absurd hstyles h
      · exact Formatted.parameters_ofArguments h
    · rfl
  · rw [if_pos (by simp [hstyles])]
    rfl

/-- The values among the parameters of a message are arguments of its record, in their order
    and none twice. Counters, `clear`, `time`, `timeEnd` and timers with an error have no
    parameters; `timeLog` has its arguments, without a first text that is the name of the
    timer. Any other level has exactly its arguments if it expands no templates, if the
    producer has split them at their styles, or if the first of them is no template. -/
theorem parameters_in_order (packet : ResolvedRecord) (id : String) :
    let parameters := (packet.message id).parameters
    (values parameters).Sublist packet.arguments ∧
    (packet.record.level ∈ ([.count, .countReset, .clear, .time, .timeEnd] : List Level) →
      parameters = []) ∧
    (∀ timer, packet.record.kind.timer? = some timer → timer.error ≠ none → parameters = []) ∧
    (∀ timer, packet.record.kind = .timeLog timer → timer.error = none →
      (∀ rest, packet.arguments = .text timer.name :: rest → parameters = rest) ∧
      ((∀ rest, packet.arguments ≠ .text timer.name :: rest) → parameters = packet.arguments)) ∧
    (packet.record.level ∉ reporting →
      (¬ packet.record.level.expands ∨ packet.record.styles ≠ [] ∨
        ∀ template rest, packet.arguments = .text template :: rest →
          ¬ Template.Marked template.toList) →
      parameters = packet.arguments) := by
  intro parameters
  have hparameters : parameters = packet.content.formatted.parameters := rfl
  rw [hparameters]
  refine ⟨values_content packet, parameters_of_silent, ?_, ?_, ?_⟩
  · intro timer htimer herror
    exact parameters_of_timer_error htimer herror
  · intro timer hkind herror
    rw [parameters_of_timeLog hkind herror]
    constructor
    · intro rest harguments
      rw [harguments, withoutName, if_pos rfl]
    · intro hother
      unfold withoutName
      split
      · next value rest harguments =>
        have hne : value ≠ timer.name := by
          rintro rfl
          exact hother rest harguments
        rw [if_neg hne, harguments]
      · rfl
  · intro hlevel hplain
    rw [content_of_not_reporting hlevel]
    exact parameters_formatArguments hplain

end ResolvedRecord

end Console
