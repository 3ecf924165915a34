import ClauseExchange.Proofs.Intake.Contribution
import ClauseExchange.Settings

/-!
What an edit of settings is read as. The name and the value count without the white space around them:
the name has to be that of a setting, and the value has to be spelled as that setting asks and to lie
within its bounds. Whichever of these fails first decides the error.
-/

namespace ClauseExchange

theorem Text.trim_eq_iff {text core : String} :
    trim text = core ↔ Trims text.toList core.toList := by
  rw [trim, ← trimChars_eq_iff, ← String.toList_inj, String.toList_ofList]

theorem Text.Trims.again {text core : List Char} (trims : Trims text core) : Trims core core where
  around := ⟨[], [], by simp, by simp⟩
  ends := trims.ends

/-- Digits, with a plus sign in front of them or without, and the number they make up. -/
inductive Ascii.Unsigned : List Char → Nat → Prop
  | plain {row : List UInt8} {value : Nat} (digits : Digits row value) : Unsigned (decode row) value
  | plus {row : List UInt8} {value : Nat} (digits : Digits row value) :
      Unsigned ('+' :: decode row) value

theorem Decimal.readUnsigned?_of_readNat? {numeral : List Char} {value : Nat}
    (read : readNat? numeral = some value) : readUnsigned? numeral = some value := by
  unfold readUnsigned?
  split
  case h_1 row =>
    have digits : ('+' :: row).all Char.isDigit = true := by
      unfold readNat? at read
      split at read
      case isTrue row => exact row.2
      case isFalse => cases read
    exact absurd digits (by simp [Char.isDigit])
  case h_2 => exact read

theorem Ascii.readNat?_eq_some_iff {text : List Char} {value : Nat} :
    Decimal.readNat? text = some value ↔ ∃ row, text = decode row ∧ Digits row value := by
  constructor
  · intro read
    have same := decode_encode (Decimal.narrow_of_readNat? read)
    rw [← same] at read
    exact ⟨encode text, same.symm, readNat?_decode_eq_some_iff.mp read⟩
  · rintro ⟨row, rfl, digits⟩
    exact readNat?_decode_eq_some_iff.mpr digits

theorem Ascii.readUnsigned?_eq_some_iff {text : List Char} {value : Nat} :
    Decimal.readUnsigned? text = some value ↔ Unsigned text value := by
  constructor
  · intro read
    unfold Decimal.readUnsigned? at read
    split at read
    case h_1 =>
      obtain ⟨row, rfl, digits⟩ := readNat?_eq_some_iff.mp read
      exact .plus digits
    case h_2 =>
      obtain ⟨row, rfl, digits⟩ := readNat?_eq_some_iff.mp read
      exact .plain digits
  · intro unsigned
    cases unsigned with
    | plain digits =>
        exact Decimal.readUnsigned?_of_readNat? (readNat?_decode_eq_some_iff.mpr digits)
    | plus digits => exact readNat?_decode_eq_some_iff.mpr digits

theorem Ascii.Unsigned.unique {text : List Char} {first second : Nat}
    (unsigned : Unsigned text first) (again : Unsigned text second) : first = second := by
  apply Option.some.inj
  rw [← readUnsigned?_eq_some_iff.mpr unsigned, readUnsigned?_eq_some_iff.mpr again]

theorem readBelow?_eq_some_iff {bound number : Nat} {text : String} :
    readBelow? bound text = some number ↔ Ascii.Unsigned text.toList number ∧ number < bound := by
  simp [readBelow?, Option.filter_eq_some_iff, Ascii.readUnsigned?_eq_some_iff]

theorem Readable.read?_bool {text : String} {on : Bool} :
    read? text = some on ↔ text = if on then "true" else "false" := by
  simp only [read?]
  split <;> cases on <;> simp_all

/-- What a text is read as, by the values that it spells and by those of them that are within bounds. -/
inductive Reading {α : Type} (spells inside : α → Prop) (name shown : String) :
    Except SettingError α → Prop
  | accepted {value : α} (spelled : spells value) (within : inside value) :
      Reading spells inside name shown (.ok value)
  | outOfBounds {value : α} (spelled : spells value) (outside : ¬inside value) :
      Reading spells inside name shown (.error (.outOfBounds name))
  | invalid (none : ∀ value, ¬spells value) :
      Reading spells inside name shown (.error (.invalidValue name shown))

namespace Reading

variable {α β : Type} {spells inside : α → Prop} {name shown : String}
  {outcome other : Except SettingError α}

theorem unique (reading : Reading spells inside name shown outcome)
    (again : Reading spells inside name shown other)
    (single : ∀ {first second}, spells first → spells second → first = second) : outcome = other := by
  cases reading with
  | accepted spelled within =>
      cases again with
      | accepted same => rw [single spelled same]
      | outOfBounds same outside => exact absurd (single spelled same ▸ within) outside
      | invalid none => exact absurd spelled (none _)
  | outOfBounds spelled outside =>
      cases again with
      | accepted same within => exact absurd (single same spelled ▸ within) outside
      | outOfBounds => rfl
      | invalid none => exact absurd spelled (none _)
  | invalid none =>
      cases again with
      | accepted spelled => exact absurd spelled (none _)
      | outOfBounds spelled => exact absurd spelled (none _)
      | invalid => rfl

/-- A value is a value of another kind, which is spelled as it is and has its bounds. -/
theorem map {spelledAs insideAs : β → Prop} {build : α → β}
    (reading : Reading spells inside name shown outcome)
    (kinds : ∀ value, spelledAs value ↔ ∃ one, build one = value ∧ spells one)
    (bounds : ∀ value, insideAs (build value) ↔ inside value) :
    Reading spelledAs insideAs name shown (outcome.map build) := by
  cases reading with
  | accepted spelled within =>
      exact .accepted ((kinds _).mpr ⟨_, rfl, spelled⟩) ((bounds _).mpr within)
  | outOfBounds spelled outside =>
      exact .outOfBounds ((kinds _).mpr ⟨_, rfl, spelled⟩) (mt (bounds _).mp outside)
  | invalid none =>
      refine .invalid ?_
      intro value spelled
      obtain ⟨one, _, spells⟩ := (kinds value).mp spelled
      exact none one spells

end Reading

/-- The two spellings of a switch. -/
def Switch (on : Bool) (text : String) : Prop :=
  text = (if on then "1" else "0") ∨ text = (if on then "true" else "false")

theorem Switch.unique {text : String} {first second : Bool} (spelled : Switch first text)
    (again : Switch second text) : first = second := by
  rcases spelled with rfl | rfl <;> cases first <;> cases second <;> simp_all [Switch]

namespace Bounds

variable {α : Type} [LT α] [DecidableLT α] {text core : String}

theorem reads [Readable α] (bounds : Bounds α) (trims : Text.Trims text.toList core.toList)
    {spells inside : α → Prop}
    (spelled : ∀ value, Readable.read? core = some value ↔ spells value)
    (within : ∀ value, inside value ↔ ¬(value < bounds.least ∨ bounds.greatest < value)) :
    Reading spells inside bounds.name text (bounds.read text) := by
  have trimmed := Text.trim_eq_iff.mpr trims
  unfold read accept
  rw [trimmed]
  cases read : Readable.read? (α := α) core with
  | none =>
      refine .invalid ?_
      intro value spells
      rw [(spelled value).mpr spells] at read
      cases read
  | some value =>
      have spells := (spelled value).mp read
      dsimp only
      split
      case isTrue outside => exact .outOfBounds spells fun inside => (within value).mp inside outside
      case isFalse admitted => exact .accepted spells ((within value).mpr admitted)

/-- A word is spelled by its number, and lies within its bounds as its number does. -/
theorem reads_word [Readable α] (bounds : Bounds α)
    (trims : Text.Trims text.toList core.toList) {size : Nat} {ofNat : Nat → α} {toNat : α → Nat}
    (toNat_lt : ∀ word, toNat word < size)
    (ofNat_toNat : ∀ word, ofNat (toNat word) = word)
    (toNat_ofNat : ∀ number < size, toNat (ofNat number) = number)
    (lt_iff : ∀ first second : α, first < second ↔ toNat first < toNat second)
    (read? : Readable.read? core = (readBelow? size core).map ofNat) :
    Reading (fun word => Ascii.Unsigned core.toList (toNat word))
      (fun word => toNat bounds.least ≤ toNat word ∧ toNat word ≤ toNat bounds.greatest)
      bounds.name text (bounds.read text) := by
  refine bounds.reads trims ?_ ?_
  · intro word
    rw [read?, Option.map_eq_some_iff]
    simp only [readBelow?_eq_some_iff]
    constructor
    · rintro ⟨number, ⟨unsigned, below⟩, rfl⟩
      rwa [toNat_ofNat number below]
    · intro unsigned
      exact ⟨toNat word, ⟨unsigned, toNat_lt word⟩, ofNat_toNat word⟩
  · intro word
    rw [lt_iff, lt_iff, not_or, Nat.not_lt, Nat.not_lt]

/-- A switch has no value outside its bounds. -/
theorem reads_switch (name : String) (trims : Text.Trims text.toList core.toList) :
    Reading (Switch · core) (fun _ => True) name core
      ((Bounds.mk name false true).readSwitch text) := by
  have within : ∀ value : Bool, True ↔ ¬(value < false ∨ true < value) := by decide
  have trimmed := Text.trim_eq_iff.mpr trims
  unfold readSwitch
  rw [trimmed]
  split
  case h_1 => exact .accepted (show Switch true "1" from Or.inl rfl) trivial
  case h_2 => exact .accepted (show Switch false "0" from Or.inl rfl) trivial
  case h_3 notOne notZero =>
    have spelled (on : Bool) : Readable.read? core = some on ↔ Switch on core := by
      rw [Readable.read?_bool, Switch]
      cases on <;> simp_all
    exact (Bounds.mk name false true).reads trims.again spelled within

end Bounds

/-- What is set, by the names that the settings go by. -/
inductive Setting where
  | flushEachLine
  | binary
  | host
  | port
  | throttleLimit
  | audit
  | timeout
deriving DecidableEq

namespace Setting

def name : Setting → String
  | .flushEachLine => "flushproof"
  | .binary => "binary"
  | .host => "host"
  | .port => "port"
  | .throttleLimit => "backoff"
  | .audit => "checks"
  | .timeout => "timeout"

def isSwitch : Setting → Bool
  | .flushEachLine | .binary | .audit => true
  | _ => false

/-- The value that an error shows. That of a switch is shown without the white space around it. -/
def shown (setting : Setting) (value core : String) : String :=
  if setting.isSwitch then core else value

end Setting

namespace Assignment

def setting : Assignment → Setting
  | .flushEachLine _ => .flushEachLine
  | .binary _ => .binary
  | .host _ => .host
  | .port _ => .port
  | .throttleLimit _ => .throttleLimit
  | .audit _ => .audit
  | .timeout _ => .timeout

/-- A text without white space around it spells the value of an assignment. -/
def Spelled (text : String) : Assignment → Prop
  | .flushEachLine value | .binary value | .audit value => Switch value text
  | .host value => text = value ∧ text ≠ ""
  | .port value => Ascii.Unsigned text.toList value.toNat
  | .throttleLimit value => Ascii.Unsigned text.toList value.toNat
  | .timeout value => Ascii.Unsigned text.toList value.toNat

def InBounds : Assignment → Prop
  | .port value => 1 ≤ value.toNat ∧ value.toNat ≤ 65535
  | .throttleLimit value => 0 ≤ value.toNat ∧ value.toNat ≤ 4294967295
  | .timeout value => 0 ≤ value.toNat ∧ value.toNat ≤ 18446744073709551615
  | _ => True

theorem Spelled.unique {text : String} {first second : Assignment} (spelled : first.Spelled text)
    (again : second.Spelled text) (same : first.setting = second.setting) : first = second := by
  -- The settings are the same, so only the seven pairs of one kind remain.
  cases first <;> cases second <;> cases same
  case host => exact congrArg host (spelled.1.symm.trans again.1)
  case port => exact congrArg port (UInt16.toNat_inj.mp (Ascii.Unsigned.unique spelled again))
  case throttleLimit =>
    exact congrArg throttleLimit (UInt32.toNat_inj.mp (Ascii.Unsigned.unique spelled again))
  case timeout => exact congrArg timeout (UInt64.toNat_inj.mp (Ascii.Unsigned.unique spelled again))
  all_goals exact congrArg _ (Switch.unique spelled again)

end Assignment

/-- What becomes of a value, given the text that is left of it without the white space around it. -/
def Setting.Takes (setting : Setting) (value core : String) :
    Except SettingError Assignment → Prop :=
  Reading (fun assignment => assignment.setting = setting ∧ assignment.Spelled core)
    Assignment.InBounds setting.name (setting.shown value core)

/-- What a name and a value are to be read as. -/
inductive Edit where
  | set (name value : String)
  | apply (text : String)

namespace Edit

/-- The name and the value of an edit. A text is parted at its first equals sign. -/
def Parts : Edit → String → String → Prop
  | .set name value, first, second => first = name ∧ second = value
  | .apply text, first, second =>
      text.toList = first.toList ++ '=' :: second.toList ∧ '=' ∉ first.toList

/-- What an edit is read as. -/
inductive Reads : Edit → Except SettingError Assignment → Prop
  | unparted {text : String} (none : '=' ∉ text.toList) :
      Reads (.apply text) (.error (.invalidValue "" text))
  | unknown {edit : Edit} {name value : String} (parts : edit.Parts name value)
      (none : ∀ setting : Setting, ¬Text.Trims name.toList setting.name.toList) :
      Reads edit (.error (.unknownOption name))
  | known {edit : Edit} {name value core : String} {setting : Setting}
      {outcome : Except SettingError Assignment} (parts : edit.Parts name value)
      (named : Text.Trims name.toList setting.name.toList)
      (trims : Text.Trims value.toList core.toList) (takes : setting.Takes value core outcome) :
      Reads edit outcome

end Edit

namespace Setting

variable {setting : Setting} {name value core : String}

/-- What a value is read as once the setting is known. -/
def readValue : Setting → String → Except SettingError Assignment
  | .flushEachLine, value => (Assignment.flushEachLineBounds.readSwitch value).map .flushEachLine
  | .binary, value => (Assignment.binaryBounds.readSwitch value).map .binary
  | .host, value => (Assignment.readHost value).map .host
  | .port, value => (Assignment.portBounds.read value).map .port
  | .throttleLimit, value => (Assignment.throttleLimitBounds.read value).map .throttleLimit
  | .audit, value => (Assignment.auditBounds.readSwitch value).map .audit
  | .timeout, value => (Assignment.timeoutBounds.read value).map .timeout

theorem read_of_named (named : Text.Trims name.toList setting.name.toList) (value : String) :
    Assignment.read name value = setting.readValue value := by
  rw [Assignment.read, Text.trim_eq_iff.mpr named]
  cases setting <;> rfl

theorem read_of_unknown (none : ∀ setting : Setting, ¬Text.Trims name.toList setting.name.toList)
    (value : String) : Assignment.read name value = .error (.unknownOption name) := by
  have unnamed (setting : Setting) : Text.trim name ≠ setting.name :=
    mt Text.trim_eq_iff.mp (none setting)
  unfold Assignment.read
  split
  case h_1 same => exact absurd same (unnamed .flushEachLine)
  case h_2 same => exact absurd same (unnamed .binary)
  case h_3 same => exact absurd same (unnamed .audit)
  case h_4 same => exact absurd same (unnamed .host)
  case h_5 same => exact absurd same (unnamed .port)
  case h_6 same => exact absurd same (unnamed .throttleLimit)
  case h_7 same => exact absurd same (unnamed .timeout)
  case h_8 => rfl

theorem takes_host (trims : Text.Trims value.toList core.toList) :
    Reading (fun host => core = host ∧ core ≠ "") (fun _ => True) "host" value
      (Assignment.readHost value) := by
  rw [Assignment.readHost, Text.trim_eq_iff.mpr trims]
  split
  case isTrue empty => exact .invalid fun host spelled => spelled.2 empty
  case isFalse filled => exact .accepted ⟨rfl, filled⟩ trivial

theorem takes_readValue (setting : Setting) (trims : Text.Trims value.toList core.toList) :
    setting.Takes value core (setting.readValue value) := by
  have switch (label : String) := Bounds.reads_switch label trims
  cases setting <;> rw [Takes, readValue]
  case' flushEachLine => apply Reading.map (switch "flushproof")
  case' binary => apply Reading.map (switch "binary")
  case' audit => apply Reading.map (switch "checks")
  case' host => apply Reading.map (takes_host trims)
  case' port =>
    apply Reading.map (Assignment.portBounds.reads_word trims UInt16.toNat_lt
      (fun _ => UInt16.ofNat_toNat) (fun _ => UInt16.toNat_ofNat_of_lt')
      (fun _ _ => UInt16.lt_iff_toNat_lt) rfl)
  case' throttleLimit =>
    apply Reading.map (Assignment.throttleLimitBounds.reads_word trims UInt32.toNat_lt
      (fun _ => UInt32.ofNat_toNat) (fun _ => UInt32.toNat_ofNat_of_lt')
      (fun _ _ => UInt32.lt_iff_toNat_lt) rfl)
  case' timeout =>
    apply Reading.map (Assignment.timeoutBounds.reads_word trims UInt64.toNat_lt
      (fun _ => UInt64.ofNat_toNat) (fun _ => UInt64.toNat_ofNat_of_lt')
      (fun _ _ => UInt64.lt_iff_toNat_lt) rfl)
  -- For each setting there is left that its assignments are spelled, and bounded, as their values are.
  case flushEachLine.bounds | binary.bounds | audit.bounds | host.bounds | port.bounds |
      throttleLimit.bounds | timeout.bounds => exact fun _ => Iff.rfl
  all_goals rintro (_ | _) <;> simp [Assignment.setting, Assignment.Spelled]

end Setting

namespace Edit

variable {edit : Edit} {name value : String} {outcome : Except SettingError Assignment}

def read : Edit → Except SettingError Assignment
  | .set name value => Assignment.read name value
  | .apply text => Assignment.parse text

theorem parts_cases (edit : Edit) :
    (∃ text, edit = .apply text ∧ '=' ∉ text.toList) ∨ ∃ name value, edit.Parts name value := by
  cases edit with
  | set name value => exact Or.inr ⟨name, value, rfl, rfl⟩
  | apply text =>
      by_cases parted : '=' ∈ text.toList
      · obtain ⟨name, value, split, free⟩ := List.eq_append_cons_of_mem parted
        right
        refine ⟨String.ofList name, String.ofList value, ?_⟩
        rw [Parts, String.toList_ofList, String.toList_ofList]
        exact ⟨split, free⟩
      · exact Or.inl ⟨text, rfl, parted⟩

theorem read_of_unparted {text : String} (none : '=' ∉ text.toList) :
    (Edit.apply text).read = .error (.invalidValue "" text) := by
  have gone : text.toList.dropWhile (· != '=') = [] := by
    rw [List.dropWhile_eq_nil_iff]
    intro character member
    rw [bne_iff_ne]
    exact ne_of_mem_of_not_mem member none
  rw [read, Assignment.parse, gone]

theorem read_of_parts (parts : edit.Parts name value) : edit.read = Assignment.read name value := by
  cases edit with
  | set =>
      obtain ⟨rfl, rfl⟩ := parts
      rfl
  | apply text =>
      obtain ⟨split, free⟩ := parts
      have before : ∀ character ∈ name.toList, (character != '=') = true := by
        intro character member
        rw [bne_iff_ne]
        exact ne_of_mem_of_not_mem member free
      rw [read, Assignment.parse, split, List.dropWhile_append_of_pos before,
        List.takeWhile_append_of_pos before]
      simp

theorem reads_read (edit : Edit) : edit.Reads edit.read := by
  rcases edit.parts_cases with ⟨text, rfl, none⟩ | ⟨name, value, parts⟩
  · rw [read_of_unparted none]
    exact .unparted none
  · rw [read_of_parts parts]
    by_cases named : ∃ setting : Setting, Text.Trims name.toList setting.name.toList
    · obtain ⟨setting, named⟩ := named
      have trims : Text.Trims value.toList (Text.trim value).toList := Text.trim_eq_iff.mp rfl
      rw [Setting.read_of_named named]
      exact .known parts named trims (setting.takes_readValue trims)
    · have none := not_exists.mp named
      rw [Setting.read_of_unknown none]
      exact .unknown parts none

/-- An edit is read as one thing only. -/
theorem reads_iff : edit.Reads outcome ↔ edit.read = outcome := by
  constructor
  · intro reads
    cases reads with
    | unparted none => exact read_of_unparted none
    | unknown parts none => rw [read_of_parts parts, Setting.read_of_unknown none]
    | @known _ _ _ _ setting _ parts named trims takes =>
        rw [read_of_parts parts, Setting.read_of_named named]
        apply (setting.takes_readValue trims).unique takes
        intro first second spelled again
        exact spelled.2.unique again.2 (spelled.1.trans again.1.symm)
  · rintro rfl
    exact edit.reads_read

theorem Reads.inBounds {assignment : Assignment} (reads : edit.Reads (.ok assignment)) :
    assignment.InBounds := by
  cases reads with
  | known _ _ _ takes =>
      cases takes with
      | accepted _ inside => exact inside

theorem Reads.spelled {assignment : Assignment} (reads : edit.Reads (.ok assignment)) :
    ∃ core, assignment.Spelled core ∧ Text.Trims core.toList core.toList := by
  cases reads with
  | known _ _ trims takes =>
      cases takes with
      | accepted spelled _ => exact ⟨_, spelled.2, trims.again⟩

end Edit

end ClauseExchange
