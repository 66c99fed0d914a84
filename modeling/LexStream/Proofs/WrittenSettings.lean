import LexStream.Config.Document
import LexStream.Proofs.WrittenDocuments

/-!
# Written settings

Settings survive their written form.  They are written unless a number is out of reach of a
document, and what is written is read back field for field; the check behind the reading then tells
of the settings what it tells of them before the writing.

Main facts:

* `Config.read?_lines`: the four lines of settings are read to the entries of their fields;
* `Config.ofEntries_rows`: these entries give the settings back;
* `Config.toDocument_read_back`: what is written is read back, or refused as the settings are.
-/

namespace LexStream.Config

open LexStream.Toml

/-! ### The lines of settings -/

/-- The lines of the settings `c`, a field on each. -/
def rows (c : Config) : List Row :=
  [⟨"channel_capacity", (toString c.channelCapacity).toList, .integer c.channelCapacity⟩,
    ⟨"unbounded", (toString c.unbounded).toList, .boolean c.unbounded⟩,
    ⟨"read_buffer_size", (toString c.readBufferSize).toList, .integer c.readBufferSize⟩,
    ⟨"thread_name", (StringForm.choose c.threadName.toList).write c.threadName.toList,
      .string c.threadName⟩]

theorem flatMap_line_rows (c : Config) : c.rows.flatMap Row.line = c.lines := by
  simp [rows, lines, line, Row.line]

theorem nodup_keys_rows (c : Config) : (c.rows.map Row.key).Nodup := by
  simp [rows]

/-- Each field is written in a form of its value (`Row.Sound`), when both numbers are below
`integerBound`. -/
theorem sound_rows {c : Config} (hcapacity : c.channelCapacity < integerBound)
    (hsize : c.readBufferSize < integerBound) : ∀ row ∈ c.rows, row.Sound := by
  have hkeys : (c.rows.map Row.key).all
      (fun key => !key.toList.isEmpty && key.toList.all isKeyRune) = true := by
    show ["channel_capacity", "unbounded", "read_buffer_size", "thread_name"].all _ = true
    decide
  have hname := Node.writtenAs_string c.threadName.toList
  rw [String.ofList_toList] at hname
  intro row hrow
  have hkey := List.all_eq_true.1 hkeys row.key (List.mem_map_of_mem hrow)
  obtain ⟨hne, hrunes⟩ := Bool.and_eq_true_iff.1 hkey
  refine ⟨by simpa using hne, List.all_eq_true.1 hrunes, ?_⟩
  simp only [rows, List.mem_cons, List.not_mem_nil, or_false] at hrow
  rcases hrow with rfl | rfl | rfl | rfl
  · exact Node.writtenAs_integer hcapacity
  · exact Node.writtenAs_boolean c.unbounded
  · exact Node.writtenAs_integer hsize
  · exact hname

/-- The `lines` of settings are read to the entries of their `rows`. -/
theorem read?_lines {c : Config} (hcapacity : c.channelCapacity < integerBound)
    (hsize : c.readBufferSize < integerBound) :
    Document.read? c.lines = some (c.rows.map Row.entry) := by
  rw [← flatMap_line_rows]
  exact Document.read?_lines (sound_rows hcapacity hsize) c.nodup_keys_rows

/-! ### Reading back -/

/-- The entries of the `rows` of the settings `c` give `c` back. -/
theorem ofEntries_rows (c : Config) : ofEntries (c.rows.map Row.entry) = .ok c := by
  have hcapacity (default) :
      natural (c.rows.map Row.entry) "channel_capacity" default = .ok c.channelCapacity := by
    simp [natural, rows, Row.entry]
  have hunbounded (default) :
      boolean (c.rows.map Row.entry) "unbounded" default = .ok c.unbounded := by
    simp [boolean, rows, Row.entry, List.lookup_cons]
  have hsize (default) :
      natural (c.rows.map Row.entry) "read_buffer_size" default = .ok c.readBufferSize := by
    simp [natural, rows, Row.entry, List.lookup_cons]
  have hname (default) :
      string (c.rows.map Row.entry) "thread_name" default = .ok c.threadName := by
    simp [string, rows, Row.entry, List.lookup_cons]
  rw [ofEntries, hcapacity, hunbounded, hsize, hname]
  rfl

/-- Reading the `lines` of `c` gives `c` after the check `validate`, which comes out as it does for
`c`. -/
theorem ofDocument_lines {c : Config} (hcapacity : c.channelCapacity < integerBound)
    (hsize : c.readBufferSize < integerBound) :
    ofDocument (String.ofList c.lines) = (do c.validate; return c) := by
  rw [ofDocument, String.toList_ofList, read?_lines hcapacity hsize]
  show (do let config ← ofEntries (c.rows.map Row.entry); config.validate; return config) = _
  rw [ofEntries_rows]
  rfl

/-- Settings are valid, or `invalid` for a reason. -/
theorem validate_cases (c : Config) :
    c.validate = .ok () ∨ ∃ reason, c.validate = .error (.invalid reason) := by
  unfold validate
  split_ifs
  · exact .inr ⟨_, rfl⟩
  · exact .inr ⟨_, rfl⟩
  · exact .inr ⟨_, rfl⟩
  · exact .inl rfl

/-- Settings `c` have no written form exactly when a number is beyond `2 ^ 63 - 1`.  All others are
written by `toDocument`, whatever `threadName` is, and `ofDocument` gives them back from their text,
if they are valid; otherwise it refuses the text as `invalid` for the reason for which `validate`
refuses `c`. -/
theorem toDocument_read_back (c : Config) :
    (c.toDocument = .error .unwritable ↔
        2 ^ 63 - 1 < c.channelCapacity ∨ 2 ^ 63 - 1 < c.readBufferSize) ∧
      (c.channelCapacity ≤ 2 ^ 63 - 1 → c.readBufferSize ≤ 2 ^ 63 - 1 →
        ∃ text, c.toDocument = .ok text ∧
          ((c.validate = .ok () ∧ ofDocument text = .ok c) ∨
            ∃ reason, c.validate = .error (.invalid reason) ∧
              ofDocument text = .error (.invalid reason))) := by
  have hbound : integerBound = 2 ^ 63 := by decide
  constructor
  · unfold toDocument
    split_ifs with hfits
    · simp only [Bool.and_eq_true, decide_eq_true_eq] at hfits
      refine ⟨fun h => absurd h (by simp), fun h => ?_⟩
      omega
    · simp only [Bool.and_eq_true, decide_eq_true_eq] at hfits
      refine ⟨fun _ => ?_, fun _ => rfl⟩
      omega
  · intro hcapacity hsize
    have hcapacity' : c.channelCapacity < integerBound := by omega
    have hsize' : c.readBufferSize < integerBound := by omega
    refine ⟨String.ofList c.lines, ?_, ?_⟩
    · rw [toDocument, if_pos (by simp [hcapacity', hsize'])]
    · rw [ofDocument_lines hcapacity' hsize']
      rcases c.validate_cases with hvalid | ⟨reason, hreason⟩
      · exact .inl ⟨hvalid, by rw [hvalid]; rfl⟩
      · exact .inr ⟨reason, hreason, by rw [hreason]; rfl⟩

/-- A `threadName` that starts with a newline, holds three quotes of either kind, a backslash and a
control, and ends in two quotes, is read back; with a NUL in it, it is refused as the settings
are. -/
theorem toDocument_read_back_quotes :
    (∃ text, toDocument { threadName := "\n'''\\\x01\"\"\"\"\"" } = .ok text ∧
        ofDocument text = .ok { threadName := "\n'''\\\x01\"\"\"\"\"" }) ∧
      ∃ text, toDocument { threadName := "\"\x00\"" } = .ok text ∧
        ofDocument text = .error (.invalid "thread_name must not contain NUL") := by
  constructor
  · obtain ⟨text, htext, ⟨-, hback⟩ | ⟨reason, hreason, -⟩⟩ :=
      (toDocument_read_back { threadName := "\n'''\\\x01\"\"\"\"\"" }).2 (by decide) (by decide)
    · exact ⟨text, htext, hback⟩
    · cases hreason
  · obtain ⟨text, htext, ⟨hvalid, -⟩ | ⟨reason, hreason, hback⟩⟩ :=
      (toDocument_read_back { threadName := "\"\x00\"" }).2 (by decide) (by decide)
    · cases hvalid
    · cases hreason
      exact ⟨text, htext, hback⟩

end LexStream.Config
