import Mathlib.Tactic.Push
import Postmortem.Proofs.Files.Store
import Postmortem.Proofs.Text.Blank
import Postmortem.Proofs.Toml.Entries
import Postmortem.Settings.Basic

/-!
# Layers of settings

Settings come in three layers: the defaults, the first file that is accepted, and the interpreter
that the environment names. A file sets each setting by itself, through its own key, and one that is
not accepted sets nothing. Main statement: `Settings.load_layers`.
-/

namespace Postmortem

open Number

namespace Settings

open Toml (Entries Item)

/-! ## Single settings -/

/-- Whether a setting is what entries say of its key, and its default if they say nothing. -/
structure IsSetting {α : Type} (es : Entries) (key : String) (Stands : Item → α → Prop)
    (default a : α) : Prop where
  given : ∀ i, (key, i) ∈ es → Stands i a
  absent : (∀ i, (key, i) ∉ es) → a = default

/-- What the items of a number of seconds stand for. -/
inductive IsSeconds : Item → Binary64 → Prop where
  | float (x : Binary64) : IsSeconds (.value (.float x)) x
  | integer (n : Int) : IsSeconds (.value (.integer n)) (.ofInt n)

theorem textOf?_eq_some_iff {i : Item} {s : String} :
    textOf? i = some s ↔ i = .value (.text s) := by
  rw [textOf?.eq_def]
  constructor
  · intro h
    split at h <;> cases h
    rfl
  · rintro rfl
    rfl

theorem flagOf?_eq_some_iff {i : Item} {b : Bool} :
    flagOf? i = some b ↔ i = .value (.flag b) := by
  rw [flagOf?.eq_def]
  constructor
  · intro h
    split at h <;> cases h
    rfl
  · rintro rfl
    rfl

theorem secondsOf?_eq_some_iff {i : Item} {x : Binary64} :
    secondsOf? i = some x ↔ IsSeconds i x := by
  rw [secondsOf?.eq_def]
  constructor
  · intro h
    split at h <;> cases h
    · exact .float x
    · exact .integer _
  · rintro (_ | _) <;> rfl

/-- A natural number is read exactly, for the integers of the format are less than `2 ^ 63`. -/
theorem wordOf?_eq_some_iff {i : Item} {w : UInt64} (hi : ∀ v, i = .value v → v.IsSound) :
    wordOf? i = some w ↔ i = .value (.integer w.toNat) := by
  rw [wordOf?.eq_def]
  constructor
  · intro h
    split at h
    · rename_i n
      split at h
      · cases h
      · rename_i hsign
        cases h
        obtain ⟨-, hmax⟩ : Int64.minValue.toInt ≤ n ∧ n ≤ Int64.maxValue.toInt := hi _ rfl
        have hword : n ≤ 9223372036854775807 := hmax
        rw [UInt64.toNat_ofNat', Nat.mod_eq_of_lt (by omega), Int.toNat_of_nonneg (by omega)]
    · cases h
  · rintro rfl
    dsimp only
    rw [if_neg (by omega), Int.toNat_natCast, UInt64.ofNat_toNat]

/-- A setting is read alone from the item of its key. -/
theorem setting_eq_some_iff {α : Type} {es : Entries} (h : es.IsSound) {key : String}
    {read : Item → Option α} {Stands : Item → α → Prop} {default a : α}
    (hread : ∀ i, (key, i) ∈ es → (read i = some a ↔ Stands i a)) :
    setting es key read default = some a ↔ IsSetting es key Stands default a := by
  rw [setting]
  cases hget : es.get? key with
  | none =>
    have hnone := Entries.get?_eq_none_iff.mp hget
    constructor
    · rintro ⟨⟩
      exact ⟨fun i hi => absurd hi (hnone i), fun _ => rfl⟩
    · intro hset
      rw [hset.absent hnone]
  | some i =>
    have hmem := (Entries.get?_eq_some_iff h.nodup).mp hget
    refine (hread i hmem).trans ⟨fun hi => ⟨fun j hj => ?_, fun hnone => absurd hmem (hnone i)⟩,
      fun hset => hset.given i hmem⟩
    have hsame := (Entries.get?_eq_some_iff h.nodup).mpr hj
    rw [hget, Option.some_inj] at hsame
    exact hsame ▸ hi

/-- A setting is given or has its default. -/
theorem IsSetting.given_or_default {α : Type} {es : Entries} {key : String}
    {Stands : Item → α → Prop} {default a : α} (h : IsSetting es key Stands default a) :
    (∃ i, (key, i) ∈ es ∧ Stands i a) ∨ a = default := by
  by_cases hkey : ∃ i, (key, i) ∈ es
  · obtain ⟨i, hi⟩ := hkey
    exact .inl ⟨i, hi, h.given i hi⟩
  · exact .inr (h.absent (by simpa using hkey))

/-- A setting depends on the entries of its key alone. -/
theorem IsSetting.congr {α : Type} {es es' : Entries} {key : String} {Stands : Item → α → Prop}
    {default a : α} (hsame : ∀ i, (key, i) ∈ es ↔ (key, i) ∈ es')
    (h : IsSetting es key Stands default a) : IsSetting es' key Stands default a :=
  ⟨fun i hi => h.given i ((hsame i).mpr hi), fun hnone => h.absent fun i hi =>
    hnone i ((hsame i).mp hi)⟩

/-! ## Files -/

/-- Whether settings are those that entries give. -/
structure IsGiven (es : Entries) (s : Settings) : Prop where
  python : IsSetting es "python" (fun i text => i = .value (.text text)) "python3" s.python
  maxChars : IsSetting es "max_chars" (fun i w => i = .value (.integer w.toNat))
    TraceLog.defaultBudget s.maxChars
  timeout : IsSetting es "timeout_secs" (fun i limit => ∃ x, limit = some x ∧ IsSeconds i x) none
    s.timeout
  judgeTimeout : IsSetting es "judge_timeout_secs" IsSeconds (.ofNat 2) s.judgeTimeout
  suppressStdout : IsSetting es "suppress_stdout" (fun i b => i = .value (.flag b)) true
    s.suppressStdout

/-- The keys of the settings. -/
def keys : List String :=
  ["python", "max_chars", "timeout_secs", "judge_timeout_secs", "suppress_stdout"]

/-- Other keys do not matter, and neither does the order. -/
theorem IsGiven.congr {es es' : Entries} {s : Settings}
    (hsame : ∀ key ∈ keys, ∀ i, (key, i) ∈ es ↔ (key, i) ∈ es') (h : IsGiven es s) :
    IsGiven es' s where
  python := h.python.congr (hsame _ (by simp [keys]))
  maxChars := h.maxChars.congr (hsame _ (by simp [keys]))
  timeout := h.timeout.congr (hsame _ (by simp [keys]))
  judgeTimeout := h.judgeTimeout.congr (hsame _ (by simp [keys]))
  suppressStdout := h.suppressStdout.congr (hsame _ (by simp [keys]))

/-- **Entries give settings one by one.** -/
theorem ofEntries?_eq_some_iff {es : Entries} (h : es.IsSound) {s : Settings} :
    ofEntries? es = some s ↔ IsGiven es s := by
  have hword (w : UInt64) : ∀ i, ("max_chars", i) ∈ es →
      (wordOf? i = some w ↔ i = .value (.integer w.toNat)) := by
    intro i hi
    refine wordOf?_eq_some_iff ?_
    rintro v rfl
    exact h.values _ v hi
  have hlimit (limit : Option Binary64) (i : Item) :
      (secondsOf? i).map some = some limit ↔ ∃ x, limit = some x ∧ IsSeconds i x := by
    rw [Option.map_eq_some_iff]
    constructor
    · rintro ⟨x, hx, rfl⟩
      exact ⟨x, rfl, secondsOf?_eq_some_iff.mp hx⟩
    · rintro ⟨x, rfl, hx⟩
      exact ⟨x, secondsOf?_eq_some_iff.mpr hx, rfl⟩
  constructor
  · intro heq
    rw [ofEntries?] at heq
    obtain ⟨python, hpython, heq⟩ := Option.bind_eq_some_iff.mp heq
    obtain ⟨maxChars, hmaxChars, heq⟩ := Option.bind_eq_some_iff.mp heq
    obtain ⟨timeout, htimeout, heq⟩ := Option.bind_eq_some_iff.mp heq
    obtain ⟨judgeTimeout, hjudgeTimeout, heq⟩ := Option.bind_eq_some_iff.mp heq
    obtain ⟨suppressStdout, hsuppressStdout, heq⟩ := Option.bind_eq_some_iff.mp heq
    cases heq
    exact {
      python := (setting_eq_some_iff h fun _ _ => textOf?_eq_some_iff).mp hpython
      maxChars := (setting_eq_some_iff h (hword _)).mp hmaxChars
      timeout := (setting_eq_some_iff h fun i _ => hlimit _ i).mp htimeout
      judgeTimeout := (setting_eq_some_iff h fun _ _ => secondsOf?_eq_some_iff).mp hjudgeTimeout
      suppressStdout := (setting_eq_some_iff h fun _ _ => flagOf?_eq_some_iff).mp hsuppressStdout }
  · intro hgiven
    have hpython := (setting_eq_some_iff h fun _ _ => textOf?_eq_some_iff).mpr hgiven.python
    have hmaxChars := (setting_eq_some_iff h (hword _)).mpr hgiven.maxChars
    have htimeout := (setting_eq_some_iff h fun i _ => hlimit _ i).mpr hgiven.timeout
    have hjudgeTimeout :=
      (setting_eq_some_iff h fun _ _ => secondsOf?_eq_some_iff).mpr hgiven.judgeTimeout
    have hsuppressStdout :=
      (setting_eq_some_iff h fun _ _ => flagOf?_eq_some_iff).mpr hgiven.suppressStdout
    simp only [ofEntries?, hpython, hmaxChars, htimeout, hjudgeTimeout, hsuppressStdout]
    rfl

theorem ofEntries?_congr {es es' : Entries} (h : es.IsSound) (h' : es'.IsSound)
    (hsame : ∀ key ∈ keys, ∀ i, (key, i) ∈ es ↔ (key, i) ∈ es') :
    ofEntries? es = ofEntries? es' := by
  ext s
  rw [ofEntries?_eq_some_iff h, ofEntries?_eq_some_iff h']
  exact ⟨IsGiven.congr hsame, IsGiven.congr fun key hkey i => (hsame key hkey i).symm⟩

/-- **A file is accepted exactly if it is a text whose entries give settings.** -/
theorem ofFile_eq_ok_iff {files : FileStore} {directory : List String} {path : String}
    {s : Settings} :
    ofFile files directory path = .ok s ↔
      ∃ text es, files.readText directory path = .ok text ∧ Toml.read? text.toList = some es ∧
        es.IsSound ∧ IsGiven es s := by
  rw [ofFile]
  cases files.readText directory path with
  | error cause => simp
  | ok text =>
    dsimp only
    cases hread : Toml.read? text.toList with
    | none => simp [hread]
    | some es =>
      have hsound := Toml.isSound_of_read? hread
      have hgiven := ofEntries?_eq_some_iff hsound (s := s)
      cases hentries : ofEntries? es with
      | none => simp_all
      | some t => simp_all

/-- What is accepted is a file. -/
theorem isFile_of_ofFile {files : FileStore} {directory : List String} {path : String}
    {s : Settings} (h : ofFile files directory path = .ok s) :
    files.isFile directory path = true := by
  obtain ⟨text, es, hread, -⟩ := ofFile_eq_ok_iff.mp h
  rw [FileStore.readText] at hread
  rw [FileStore.isFile]
  cases hfind : files.find directory path with
  | error cause =>
    rw [hfind] at hread
    cases hread
  | ok found =>
    obtain ⟨place, node⟩ := found
    rw [hfind] at hread
    cases node with
    | directory => cases hread
    | file bytes => rfl

/-- Whether settings are those of the first of some files that is accepted, or the defaults. -/
inductive IsFirst (files : FileStore) (directory : List String) :
    List String → Settings → Prop where
  | default : IsFirst files directory [] {}
  | accepted {path : String} {paths : List String} {s : Settings}
      (h : ofFile files directory path = .ok s) : IsFirst files directory (path :: paths) s
  | rejected {path : String} {paths : List String} {s : Settings} {e : SettingsError}
      (h : ofFile files directory path = .error e) (hrest : IsFirst files directory paths s) :
      IsFirst files directory (path :: paths) s

/-- **The first file that is accepted gives the settings.** -/
theorem isFirst_ofFirst (files : FileStore) (directory : List String) (paths : List String) :
    IsFirst files directory paths (ofFirst files directory paths) := by
  induction paths with
  | nil => exact .default
  | cons path paths ih =>
    rw [ofFirst, List.findSome?_cons]
    cases hfile : ofFile files directory path with
    | ok s =>
      rw [if_pos (isFile_of_ofFile hfile)]
      exact .accepted hfile
    | error e =>
      have hnone : (if files.isFile directory path then
          (Except.error e : Except SettingsError Settings).toOption else none) = none := by
        split <;> rfl
      rw [hnone]
      exact .rejected hfile ih

/-! ## Numbers of seconds -/

/-- Whether the numbers of settings are those of binary64. -/
structure InFormat (s : Settings) : Prop where
  timeout : ∀ x, s.timeout = some x → x.InFormat
  judgeTimeout : s.judgeTimeout.InFormat

theorem inFormat_default : InFormat {} :=
  ⟨by rintro x ⟨⟩, by decide⟩

theorem IsSeconds.inFormat {i : Item} {x : Binary64} (h : IsSeconds i x)
    (hi : ∀ v, i = .value v → v.IsSound) : x.InFormat := by
  cases h with
  | float => exact hi _ rfl
  | integer n => exact Binary64.inFormat_ofRatio _ _ Nat.one_pos

theorem IsGiven.inFormat {es : Entries} {s : Settings} (hes : es.IsSound) (h : IsGiven es s) :
    s.InFormat := by
  have hsound {key : String} {i : Item} (hi : (key, i) ∈ es) : ∀ v, i = .value v → v.IsSound := by
    rintro v rfl
    exact hes.values _ v hi
  constructor
  · intro x hx
    rcases h.timeout.given_or_default with ⟨i, hi, y, hy, hseconds⟩ | hnone
    · rw [hx, Option.some_inj] at hy
      exact hy ▸ hseconds.inFormat (hsound hi)
    · rw [hx] at hnone
      cases hnone
  · rcases h.judgeTimeout.given_or_default with ⟨i, hi, hseconds⟩ | hdefault
    · exact hseconds.inFormat (hsound hi)
    · rw [hdefault]
      exact inFormat_default.judgeTimeout

theorem IsFirst.inFormat {files : FileStore} {directory : List String} {paths : List String}
    {s : Settings} (h : IsFirst files directory paths s) : s.InFormat := by
  induction h with
  | default => exact inFormat_default
  | accepted h =>
    obtain ⟨text, es, -, -, hes, hgiven⟩ := ofFile_eq_ok_iff.mp h
    exact hgiven.inFormat hes
  | rejected h hrest ih => exact ih

/-! ## The environment -/

/-- What the interpreter that the environment names makes of settings: it takes the place of theirs
unless it is blank. -/
inductive IsOverridden (base : Settings) : Option String → Settings → Prop where
  | unset : IsOverridden base none base
  | blank {python : String} (h : ∀ c ∈ python.toList, Text.isBlank c = true) :
      IsOverridden base (some python) base
  | named {python : String} {c : Char} (hmem : c ∈ python.toList) (hc : Text.isBlank c = false) :
      IsOverridden base (some python) { base with python }

theorem isOverridden_withInterpreter (base : Settings) (named? : Option String) :
    IsOverridden base named? (base.withInterpreter named?) := by
  cases named? with
  | none => exact .unset
  | some python =>
    have hall : (Text.trimmed python).isEmpty = true ↔
        ∀ c ∈ python.toList, Text.isBlank c = true := by
      rw [String.isEmpty_iff, Text.trimmed, String.ofList_eq_empty_iff, Text.trim_eq_nil_iff]
    rw [withInterpreter]
    split
    · rename_i hblank
      exact .blank (hall.mp hblank)
    · rename_i hnamed
      rw [hall] at hnamed
      push Not at hnamed
      obtain ⟨c, hmem, hc⟩ := hnamed
      exact .named hmem (Bool.eq_false_of_not_eq_true hc)

theorem IsOverridden.inFormat {base s : Settings} {named? : Option String}
    (h : IsOverridden base named? s) (hbase : base.InFormat) : s.InFormat := by
  cases h with
  | unset => exact hbase
  | blank => exact hbase
  | named => exact ⟨hbase.timeout, hbase.judgeTimeout⟩

/-- **Settings that are loaded have numbers of binary64.** -/
theorem inFormat_load (files : FileStore) (directory : List String) (configDirectory : String)
    (named? : Option String) : (load files directory configDirectory named?).InFormat :=
  (isOverridden_withInterpreter _ named?).inFormat (isFirst_ofFirst files directory _).inFormat

/-- **Settings are resolved in layers and one by one.** A file that is not accepted has no part in
them; of one that is, each setting depends on the entries of its own key alone. -/
theorem load_layers (files : FileStore) (directory : List String) (configDirectory : String)
    (named? : Option String) :
    (∃ base, IsFirst files directory [localFile, userFile configDirectory] base ∧
      IsOverridden base named? (load files directory configDirectory named?)) ∧
    (∀ path s, ofFile files directory path = .ok s ↔
      ∃ text es, files.readText directory path = .ok text ∧ Toml.read? text.toList = some es ∧
        es.IsSound ∧ IsGiven es s) ∧
    ∀ es es' : Entries, es.IsSound → es'.IsSound →
      (∀ key ∈ keys, ∀ i, (key, i) ∈ es ↔ (key, i) ∈ es') → ofEntries? es = ofEntries? es' :=
  ⟨⟨_, isFirst_ofFirst files directory _, isOverridden_withInterpreter _ named?⟩,
    fun _ _ => ofFile_eq_ok_iff, fun _ _ => ofEntries?_congr⟩

/-- Two keys in the other order, and one that is unknown. -/
theorem load_layers_reordered :
    let es : Entries :=
      [("timeout_secs", .value (.integer 3)), ("max_chars", .value (.integer 5))]
    let es' : Entries :=
      [("max_chars", .value (.integer 5)), ("retries", .value .moment),
        ("timeout_secs", .value (.integer 3))]
    es.IsSound ∧ es'.IsSound ∧ (∀ key ∈ keys, ∀ i, (key, i) ∈ es ↔ (key, i) ∈ es') ∧
      ofEntries? es = ofEntries? es' := by
  intro es es'
  have hthree : (Toml.Value.integer 3).IsSound := ⟨by decide, by decide⟩
  have hfive : (Toml.Value.integer 5).IsSound := ⟨by decide, by decide⟩
  have hfirst : es.IsSound :=
    (Entries.isSound_nil.set "timeout_secs" (by rintro v ⟨⟩; exact hthree)).set "max_chars"
      (by rintro v ⟨⟩; exact hfive)
  have hsecond : es'.IsSound :=
    ((Entries.isSound_nil.set "max_chars" (by rintro v ⟨⟩; exact hfive)).set "retries"
      (by rintro v ⟨⟩; trivial)).set "timeout_secs" (by rintro v ⟨⟩; exact hthree)
  have hsame : ∀ key ∈ keys, ∀ i, (key, i) ∈ es ↔ (key, i) ∈ es' := by
    simp [keys, es, es']
  exact ⟨hfirst, hsecond, hsame,
    (load_layers FileStore.empty [] "/" none).2.2 es es' hfirst hsecond hsame⟩

-- The file in the current directory is not accepted, and sets nothing; the interpreter is blank.
example :
    let files := (FileStore.empty.addFile [localFile]
      (Text.Utf8.ofString "python = \"pypy\"\nmax_chars = \"lots\"\n")).addFile
      ["config.toml", "exectrace", "home"] (Text.Utf8.ofString "retries = 1\nmax_chars = 500\n")
    load files [] "/home" (some " ") = { maxChars := 500 } := by
  decide +kernel

end Settings

end Postmortem
