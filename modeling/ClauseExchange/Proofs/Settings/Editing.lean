import ClauseExchange.Proofs.Settings.Reading
import Mathlib.Data.List.Induction

/-!
Settings under edits. Of each setting the last assignment stands that was accepted, and an edit that is
rejected changes nothing.
-/

namespace ClauseExchange

namespace Settings

/-- The assignment of the value that a setting has. -/
def get (settings : Settings) : Setting → Assignment
  | .flushEachLine => .flushEachLine settings.flushEachLine
  | .binary => .binary settings.binary
  | .host => .host settings.host
  | .port => .port settings.port
  | .throttleLimit => .throttleLimit settings.throttleLimit
  | .audit => .audit settings.audit
  | .timeout => .timeout settings.timeout

variable {settings : Settings}

theorem ext_get {first second : Settings} (same : ∀ setting, first.get setting = second.get setting) :
    first = second := by
  have flushEachLine := same .flushEachLine
  have binary := same .binary
  have host := same .host
  have port := same .port
  have throttleLimit := same .throttleLimit
  have audit := same .audit
  have timeout := same .timeout
  cases first
  cases second
  simp_all [get]

theorem get_assign (settings : Settings) (assignment : Assignment) (setting : Setting) :
    (settings.assign assignment).get setting =
      if assignment.setting = setting then assignment else settings.get setting := by
  cases assignment <;> cases setting <;> rfl

theorem assign_comm {first second : Assignment} (other : first.setting ≠ second.setting) :
    (settings.assign first).assign second = (settings.assign second).assign first := by
  apply ext_get
  intro setting
  rw [get_assign, get_assign, get_assign, get_assign]
  split
  case isTrue same => rw [if_neg (same ▸ other)]
  case isFalse => rfl

/-- Settings that an edit fails to change are the settings that they were. -/
def settle (settings : Settings) : Except SettingError Settings → Except SettingError Unit × Settings
  | .ok after => (.ok (), after)
  | .error error => (.error error, settings)

def edit (settings : Settings) : Edit → Except SettingError Unit × Settings
  | .set name value => settings.settle (settings.set name value)
  | .apply text => settings.settle (settings.apply text)

def editAll (settings : Settings) (edits : List Edit) : Settings :=
  edits.foldl (fun settings edit => (settings.edit edit).2) settings

/-! What one edit does. -/

theorem edit_eq (settings : Settings) (edit : Edit) :
    settings.edit edit = settings.settle (edit.read.map settings.assign) := by
  cases edit <;> rfl

theorem edit_of_accepted {edit : Edit} {assignment : Assignment} (reads : edit.Reads (.ok assignment)) :
    settings.edit edit = (.ok (), settings.assign assignment) := by
  rw [edit_eq, Edit.reads_iff.mp reads]
  rfl

theorem edit_of_rejected {edit : Edit} {error : SettingError} (reads : edit.Reads (.error error)) :
    settings.edit edit = (.error error, settings) := by
  rw [edit_eq, Edit.reads_iff.mp reads]
  rfl

/-- The answer to an edit, and the settings after it. -/
structure Edits (settings : Settings) (edit : Edit) (answer : Except SettingError Unit)
    (after : Settings) : Prop where
  accepted : answer = .ok () ↔ ∃ assignment, edit.Reads (.ok assignment)
  rejected (error : SettingError) : answer = .error error ↔ edit.Reads (.error error)
  assigns (assignment : Assignment) : edit.Reads (.ok assignment) →
    ∀ setting, after.get setting =
      if assignment.setting = setting then assignment else settings.get setting
  unchanged (error : SettingError) : answer = .error error → after = settings

theorem edits_edit (settings : Settings) (edit : Edit) :
    settings.Edits edit (settings.edit edit).1 (settings.edit edit).2 := by
  rcases read : edit.read with error | assignment
  · have reads := Edit.reads_iff.mpr read
    rw [edit_of_rejected reads]
    constructor
    · simp [Edit.reads_iff, read]
    · simp [Edit.reads_iff, read]
    · simp [Edit.reads_iff, read]
    · simp
  · have reads := Edit.reads_iff.mpr read
    rw [edit_of_accepted reads]
    constructor
    · simp [Edit.reads_iff, read]
    · simp [Edit.reads_iff, read]
    · intro other again
      have same : assignment = other := by simpa [Edit.reads_iff, read] using again
      exact same ▸ settings.get_assign assignment
    · simp

/-! What edits come to. -/

/-- No edit assigns anything to a setting. -/
def Spares (edits : List Edit) (setting : Setting) : Prop :=
  ∀ edit ∈ edits, ∀ assignment, edit.Reads (.ok assignment) → assignment.setting ≠ setting

/-- What stands of a setting: the last assignment that was accepted, or the default if there is none. -/
def Stands (edits : List Edit) (setting : Setting) (assignment : Assignment) : Prop :=
  (∃ earlier edit later, edits = earlier ++ edit :: later ∧ edit.Reads (.ok assignment) ∧
    assignment.setting = setting ∧ Spares later setting) ∨
  Spares edits setting ∧ assignment = ({} : Settings).get setting

theorem Spares.concat {edits : List Edit} {setting : Setting} {edit : Edit}
    (spares : Spares edits setting)
    (also : ∀ assignment, edit.Reads (.ok assignment) → assignment.setting ≠ setting) :
    Spares (edits ++ [edit]) setting := by
  rw [Spares, List.forall_mem_append]
  exact ⟨spares, List.forall_mem_singleton.mpr also⟩

theorem Stands.concat {edits : List Edit} {setting : Setting} {assignment : Assignment} {edit : Edit}
    (stands : Stands edits setting assignment)
    (also : ∀ other, edit.Reads (.ok other) → other.setting ≠ setting) :
    Stands (edits ++ [edit]) setting assignment := by
  rcases stands with ⟨earlier, last, later, rfl, reads, same, spares⟩ | ⟨spares, default⟩
  · exact Or.inl ⟨earlier, last, later ++ [edit], by simp, reads, same, spares.concat also⟩
  · exact Or.inr ⟨spares.concat also, default⟩

theorem editAll_concat (settings : Settings) (edits : List Edit) (edit : Edit) :
    settings.editAll (edits ++ [edit]) = ((settings.editAll edits).edit edit).2 :=
  List.foldl_concat ..

theorem stands_editAll (edits : List Edit) (setting : Setting) :
    Stands edits setting ((({} : Settings).editAll edits).get setting) := by
  induction edits using List.reverseRecOn with
  | nil => exact Or.inr ⟨nofun, rfl⟩
  | append_singleton edits edit induction =>
      rw [editAll_concat]
      have edits := edits_edit (editAll {} edits) edit
      rcases read : edit.read with error | assignment
      · have reads := Edit.reads_iff.mpr read
        rw [edits.unchanged error ((edits.rejected error).mpr reads)]
        refine induction.concat ?_
        simp [Edit.reads_iff, read]
      · have reads := Edit.reads_iff.mpr read
        rw [edits.assigns assignment reads]
        split
        case isTrue same => exact Or.inl ⟨_, edit, [], rfl, reads, same, nofun⟩
        case isFalse other =>
          refine induction.concat ?_
          simpa [Edit.reads_iff, read] using other

/-- What all settings have in common that edits can lead to. -/
structure Sound (settings : Settings) : Prop where
  port : 1 ≤ settings.port.toNat ∧ settings.port.toNat ≤ 65535
  host : settings.host ≠ ""
  trimmed : Text.Trims settings.host.toList settings.host.toList

theorem sound_editAll (edits : List Edit) : (({} : Settings).editAll edits).Sound := by
  have port : (Assignment.port (editAll {} edits).port).InBounds := by
    rcases stands_editAll edits .port with ⟨_, edit, _, _, reads, _⟩ | ⟨_, default⟩
    · exact reads.inBounds
    · have same : (editAll {} edits).port = 6379 := Assignment.port.inj default
      rw [same]
      exact ⟨by decide, by decide⟩
  have host : (editAll {} edits).host ≠ "" ∧
      Text.Trims (editAll {} edits).host.toList (editAll {} edits).host.toList := by
    rcases stands_editAll edits .host with ⟨_, edit, _, _, reads, _⟩ | ⟨_, default⟩
    · obtain ⟨core, ⟨rfl, filled⟩, trims⟩ := reads.spelled
      exact ⟨filled, trims⟩
    · have same : (editAll {} edits).host = "127.0.0.1" := Assignment.host.inj default
      rw [same]
      exact ⟨by decide, Text.trim_eq_iff.mp (by decide)⟩
  exact ⟨port, host.1, host.2⟩

/-- Of each setting the last assignment stands that was accepted among any edits. What an edit is read as
decides whether it is accepted: if so it assigns its value and nothing else, and if not it changes
nothing and tells why. So edits of different settings may be made in either order. -/
theorem editAll_stands (edits : List Edit) (edit : Edit) :
    let settings := ({} : Settings).editAll edits
    (∀ setting, Stands edits setting (settings.get setting)) ∧
      settings.Edits edit (settings.edit edit).1 (settings.edit edit).2 ∧
      settings.Sound ∧
      ∀ other first second, edit.Reads (.ok first) → other.Reads (.ok second) →
        first.setting ≠ second.setting →
        ((settings.edit edit).2.edit other).2 = ((settings.edit other).2.edit edit).2 := by
  intro settings
  refine ⟨stands_editAll edits, edits_edit settings edit, sound_editAll edits, ?_⟩
  intro other first second reads readsOther different
  rw [edit_of_accepted reads, edit_of_accepted readsOther, edit_of_accepted reads,
    edit_of_accepted readsOther]
  exact assign_comm different

example : ({} : Settings).editAll
      [.apply " port = +07001", .set "port" "0", .apply "host= store.local\t", .apply "timeout"] =
    { port := 7001, host := "store.local" } := by decide +kernel

end Settings

end ClauseExchange
