import Dockstack.Base.Quote
import Dockstack.Docker.ComposeValidate

/-!
# Messages of Docker Compose

`cleanComposeOutput` of `internal/docker/compose_validate.go:18–36` on the lines that a logger
prints: `time=… level=… msg=` and the message in quotes, as Go's `%q` writes it.
-/

namespace Dockstack.Docker

open Dockstack.Base

/-- What is printed as a line: a time and a level, and a message without line feeds. -/
structure ComposeLogLine where
  time : List Char
  level : List Char
  msg : List Char
  time_plain : '=' ∉ time ∧ '\n' ∉ time
  level_plain : '=' ∉ level ∧ '\n' ∉ level
  msg_line : '\n' ∉ msg

/-- The line before its message. -/
def ComposeLogLine.head (entry : ComposeLogLine) : List Char :=
  "time".toList ++ '=' :: (entry.time ++ " level".toList ++ '=' :: (entry.level ++ [' ']))

variable (isPrint : Char → Bool)

/-- The line of an entry. -/
def ComposeLogLine.line (entry : ComposeLogLine) : List Char :=
  entry.head ++ ("msg=".toList ++ quote isPrint entry.msg)

/-- The lines of some entries. -/
def printed (entries : List ComposeLogLine) : List Char :=
  entries.flatMap fun entry ↦ entry.line isPrint ++ ['\n']

/-- Every message comes through whole, with its escapes or without them. -/
def MessagesWhole (entries : List ComposeLogLine) : Prop :=
  List.Forall₂ (fun entry got ↦ got = String.ofList entry.msg ∨
    got = String.ofList (escape isPrint entry.msg)) entries
      (cleanComposeOutput (printed isPrint entries))

variable {isPrint}

/-! ## The lines -/

private theorem ComposeLogLine.newline_notMem_line (entry : ComposeLogLine) :
    '\n' ∉ entry.line isPrint := by
  simp only [ComposeLogLine.line, ComposeLogLine.head, quote, List.mem_append, List.mem_cons,
    not_or]
  refine ⟨⟨by decide, by decide, ⟨entry.time_plain.2, by decide⟩, by decide,
    entry.level_plain.2, by decide, by decide⟩, by decide, by decide,
    newline_notMem_escape isPrint entry.msg_line, by decide, by decide⟩

private theorem ComposeLogLine.trimSpace_line (entry : ComposeLogLine) :
    trimSpace (entry.line isPrint) = entry.line isPrint := by
  have hend : entry.line isPrint =
      entry.head ++ ("msg=".toList ++ '"' :: escape isPrint entry.msg) ++ ['"'] := by
    simp only [ComposeLogLine.line, quote, List.append_assoc, List.cons_append]
  have hlast : (entry.line isPrint).getLast? = some '"' := by rw [hend, List.getLast?_concat]
  have hhead : (entry.line isPrint).head? = some 't' := rfl
  exact trimSpace_eq_self hhead (by decide) hlast (by decide)

private theorem splitOn_printed (entries : List ComposeLogLine) :
    (printed isPrint entries).splitOn '\n' = entries.map (ComposeLogLine.line isPrint) ++ [[]] := by
  induction entries with
  | nil => rfl
  | cons entry entries ih =>
    rw [printed, List.flatMap_cons, List.append_assoc, List.singleton_append,
      List.splitOn_append_cons_self, List.splitOn_eq_singleton entry.newline_notMem_line]
    rw [printed] at ih
    rw [ih]
    rfl

/-- What is kept of the lines. -/
theorem cleanComposeOutput_printed (entries : List ComposeLogLine) :
    cleanComposeOutput (printed isPrint entries) =
      (entries.map fun entry ↦ String.ofList (logMessage (entry.line isPrint))).take
        composeValidateMaxLines := by
  have htrim : (entries.map (ComposeLogLine.line isPrint)).map trimSpace =
      entries.map (ComposeLogLine.line isPrint) := by
    rw [List.map_map]
    exact List.map_congr_left fun entry _ ↦ entry.trimSpace_line
  have hfilter : (entries.map (ComposeLogLine.line isPrint)).filter (!·.isEmpty) =
      entries.map (ComposeLogLine.line isPrint) := by
    rw [List.filter_eq_self]
    intro line hline
    obtain ⟨entry, -, rfl⟩ := List.mem_map.mp hline
    rfl
  rw [cleanComposeOutput, splitOn_printed, List.map_append, htrim, List.filter_append, hfilter,
    List.map_append, List.map_map]
  congr 1
  exact List.append_nil _

/-! ## The messages -/

private theorem ComposeLogLine.msg_first (entry : ComposeLogLine) :
    ¬ "msg=\"".toList <:+: entry.head ++ "msg=\"".toList.dropLast := by
  have htext : entry.head ++ "msg=\"".toList.dropLast = "time".toList ++ '=' ::
      (entry.time ++ " level".toList ++ '=' :: (entry.level ++ " msg".toList ++ '=' :: [])) := by
    simp [ComposeLogLine.head]
  have hpat : "msg=\"".toList = "msg".toList ++ '=' :: ['"'] := rfl
  rw [htext, hpat]
  intro h
  have hmsg : '=' ∉ "msg".toList := by decide
  rcases infix_append_cons_cases (by decide) hmsg h with ⟨h, -⟩ | h
  · exact absurd h (by decide)
  have htime : '=' ∉ entry.time ++ " level".toList := by
    rw [List.mem_append, not_or]
    exact ⟨entry.time_plain.1, by decide⟩
  rcases infix_append_cons_cases htime hmsg h with ⟨h, -⟩ | h
  · have hlevel := List.suffix_of_suffix_length_le h (List.suffix_append _ " level".toList)
      (by decide)
    exact absurd hlevel (by decide)
  have hlevel : '=' ∉ entry.level ++ " msg".toList := by
    rw [List.mem_append, not_or]
    exact ⟨entry.level_plain.1, by decide⟩
  rcases infix_append_cons_cases hlevel hmsg h with ⟨-, h⟩ | h
  · exact absurd h (by decide)
  · exact absurd h (by decide)

/-- What is kept of a line is its message up to the first quote. -/
theorem ComposeLogLine.logMessage_line (isPrint : Char → Bool) (entry : ComposeLogLine) :
    ∃ rest, escape isPrint entry.msg ++ ['"'] = logMessage (entry.line isPrint) ++ '"' :: rest ∧
      '"' ∉ logMessage (entry.line isPrint) := by
  obtain ⟨kept, rest, heq, hkept⟩ := List.eq_append_cons_of_mem
    (List.mem_append_right (escape isPrint entry.msg) (List.mem_singleton_self '"'))
  have hline : entry.line isPrint =
      entry.head ++ ("msg=\"".toList ++ (escape isPrint entry.msg ++ ['"'])) := rfl
  have hstart : indexOf "msg=\"".toList (entry.line isPrint) = some entry.head.length := by
    rw [hline]
    exact indexOf_of_first entry.msg_first _
  have hmsg : (entry.line isPrint).drop (entry.head.length + "msg=\"".length) =
      kept ++ '"' :: rest := by
    rw [← List.drop_drop, hline, List.drop_left, ← heq]
    exact List.drop_left
  have hstop : indexOf ['"'] (kept ++ '"' :: rest) = some kept.length :=
    indexOf_of_notMem hkept [] rest
  have hkeep : logMessage (entry.line isPrint) = kept := by
    rw [logMessage, hstart]
    simp only [hmsg, hstop]
    exact List.take_left
  exact ⟨rest, by rw [hkeep, heq], by rwa [hkeep]⟩

/-- It is whole exactly when the message has no quote. -/
theorem ComposeLogLine.logMessage_whole_iff (isPrint : Char → Bool) (entry : ComposeLogLine) :
    (logMessage (entry.line isPrint) = entry.msg ∨
      logMessage (entry.line isPrint) = escape isPrint entry.msg) ↔ '"' ∉ entry.msg := by
  obtain ⟨rest, heq, hkept⟩ := entry.logMessage_line isPrint
  constructor
  · rintro (h | h)
    · rwa [h] at hkept
    · rwa [h, quote_mem_escape_iff isPrint] at hkept
  · intro hno
    rw [← quote_mem_escape_iff isPrint] at hno
    exact .inr (append_cons_inj hno hkept heq).1.symm

/-- The messages of at most twenty lines come through whole exactly when none of them has a
quote. -/
theorem messagesWhole_iff (isPrint : Char → Bool) (entries : List ComposeLogLine)
    (hlen : entries.length ≤ composeValidateMaxLines) :
    MessagesWhole isPrint entries ↔ ∀ entry ∈ entries, '"' ∉ entry.msg := by
  rw [MessagesWhole, cleanComposeOutput_printed,
    List.take_of_length_le (by rwa [List.length_map]), List.forall₂_map_right_iff,
    List.forall₂_same]
  apply forall₂_congr
  intro entry _
  rw [String.ofList_inj, String.ofList_inj]
  exact entry.logMessage_whole_iff isPrint

/-- A warning on a variable that is not set. -/
def unsetVariable (name : String) : ComposeLogLine where
  time := "\"2026-01-01T00:00:00Z\"".toList
  level := "warning".toList
  msg := "The ".toList ++ name.toList.filter (· != '\n') ++
    " variable is not set. Defaulting to a blank string.".toList
  time_plain := by decide
  level_plain := by decide
  msg_line := by
    simp only [List.mem_append, not_or]
    exact ⟨⟨by decide, by simp⟩, by decide⟩

/-- The characters of ASCII that are printed. -/
def printsASCII (c : Char) : Bool := 0x20 ≤ c.val.toNat && c.val.toNat < 0x7F

/-- Without quotes around its name it comes through. -/
theorem messagesWhole_unquoted : MessagesWhole printsASCII [unsetVariable "FOO"] :=
  (messagesWhole_iff printsASCII _ (by decide)).mpr (by decide)

/-- With quotes it is cut at the first one, after the backslash of its escape. -/
theorem not_messagesWhole_quoted :
    cleanComposeOutput (printed printsASCII [unsetVariable "\"FOO\""]) = ["The \\"] ∧
      ¬ MessagesWhole printsASCII [unsetVariable "\"FOO\""] := by
  have hclean : cleanComposeOutput (printed printsASCII [unsetVariable "\"FOO\""]) =
      ["The \\"] := by decide +kernel
  refine ⟨hclean, ?_⟩
  rw [MessagesWhole, hclean]
  intro h
  rcases (List.forall₂_cons.mp h).1 with h | h
  · exact absurd h (by decide +kernel)
  · exact absurd h (by decide +kernel)

end Dockstack.Docker
