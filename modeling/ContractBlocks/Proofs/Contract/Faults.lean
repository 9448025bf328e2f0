import ContractBlocks.Proofs.Contract.ReadBack

namespace ContractBlocks.Document

open Json (Fallback Path Reordered)

/-- The fault of a value that is no document lies with what stands at its path, and is described by it:
    no part of the expected category is written with such a head, while the objects on the way have
    the keys of parts of the categories that are expected there. -/
theorem read_error_leads {json : Json} {fault : Unrecognized} (h : read json = .error fault) :
    ∃ found text, json.at? fault.path = some found ∧ found.DescribedAs text ∧
      fault.message = "unrecognized " ++ fault.expected.text ++ " at " ++ fault.path.text ++ ": " ++ text ∧
      Leads (.part .contract) json fault.path fault.expected found ∧ ¬fault.expected.Writes found.head := by
  obtain ⟨hleads, hwrites⟩ := leads_of_read_eq_error h
  exact ⟨fault.found, _, hleads.at?_eq_some, fault.found.describedAs_describe, rfl, hleads, hwrites⟩

/-- A text stands where the first case of a list waits for an observation. -/
theorem read_error_leads_into_a_case :
    let json : Json := .object [("when", .list [.object [("case", .object [("notify_if", .string "maybe")]),
      ("then", .string "close")]]), ("timeout", .int64 5), ("timeout_continuation", .string "close")]
    let path : Path := [.key "when", .index 0, .key "case", .key "notify_if"]
    ∃ found text, json.at? path = some found ∧ found.DescribedAs text ∧
      "unrecognized observation at $.when[0].case.notify_if: \"maybe\"" =
        "unrecognized " ++ "observation" ++ " at " ++ Path.text path ++ ": " ++ text ∧
      Leads (.part .contract) json path .observation found ∧ ¬Expected.Writes .observation found.head := by
  intro json path
  have hread : read json = .error ⟨.observation, path, .string "maybe"⟩ := by
    simp [json, path, read, readContract, readCases, readCasesFrom, readCase, readAction, readObservation, Forms.find?,
      contractForms, actionForms, Fallback.get, lookup_cons]
    rfl
  have hmessage : Unrecognized.message ⟨.observation, path, .string "maybe"⟩ =
      "unrecognized observation at $.when[0].case.notify_if: \"maybe\"" := by decide +kernel
  rw [← hmessage]
  exact read_error_leads hread

/-- What the fault says: what was expected, where, and what was found. -/
def Unrecognized.texts (fault : Unrecognized) : String × String × String :=
  (fault.expected.text, fault.path.text, fault.found.describe)

/-- What reading shows: what was read, or the texts of the fault. -/
def shown {α : Type} (x : Except Unrecognized α) : Except (String × String × String) α :=
  x.mapError Unrecognized.texts

/-- Reading does not depend on the order in which objects have their keys: of two values that differ in
    nothing else, both are read as the same contract, or both are refused with the same texts. -/
theorem shown_read_eq_of_reordered {a b : Json} (h : Reordered a b) : shown (read a) = shown (read b) := by
  have hagree := (readContract_reads_and_readCase_reads a).1 b h .null .null []
  rw [read, read]
  generalize readContract .null [] a = x at hagree
  generalize readContract .null [] b = y at hagree
  cases hagree with
  | ok => rfl
  | error _ _ hreordered =>
    have htexts := hreordered.describe_eq
    simp only [shown, Except.mapError, Unrecognized.texts, htexts]

/-- Three faults are in both values, and two of them in one object. The one that is shown is the same. -/
theorem shown_read_eq_of_reordered_three_faults :
    let bound : Json := .object [("from", .string "one"), ("to", .null)]
    let other : Json := .object [("to", .null), ("from", .string "one")]
    let choice : Json := .object [("choice_owner", .object [("role_token", .string "x")]),
      ("choice_name", .string "n")]
    let entry (bound : Json) : Json := .object [("then", .string "close"),
      ("case", .object [("choose_between", .list [bound]), ("for_choice", choice)])]
    let a : Json := .object [("timeout", .bool true), ("when", .list [entry bound]),
      ("timeout_continuation", .string "close")]
    let b : Json := .object [("when", .list [entry other]), ("timeout_continuation", .string "close"),
      ("timeout", .bool true)]
    Reordered a b ∧ shown (read a) = .error ("integer", "$.when[0].case.choose_between[0].from", "\"one\"") ∧
      shown (read b) = .error ("integer", "$.when[0].case.choose_between[0].from", "\"one\"") := by
  intro bound other choice entry a b
  have hbound : Reordered bound other := .entries (.swap _ _ _)
  have hchoices : Reordered (.list [bound]) (.list [other]) := @Reordered.inList [] [] _ _ hbound
  have haction : Reordered (.object [("choose_between", .list [bound]), ("for_choice", choice)])
      (.object [("choose_between", .list [other]), ("for_choice", choice)]) := @Reordered.inObject [] _ _ _ _ hchoices
  have hentry : Reordered (entry bound) (entry other) := @Reordered.inObject [_] [] _ _ _ haction
  have hcases : Reordered (.list [entry bound]) (.list [entry other]) := @Reordered.inList [] [] _ _ hentry
  have hreordered : Reordered a b :=
    (@Reordered.inObject [_] [_] _ _ _ hcases).trans (.entries ((List.Perm.swap _ _ _).trans ((List.Perm.swap _ _ _).cons _)))
  have hread : read a = .error ⟨.integer, [.key "when", .index 0, .key "case", .key "choose_between", .index 0,
      .key "from"], .string "one"⟩ := by
    simp [a, entry, bound, choice, read, readContract, readCases, readCasesFrom, readCase, readAction, readChoiceId, readParty,
      readString, readList, readItems, readBound, readInteger, Forms.find?, contractForms, actionForms, partyForms,
      Fallback.get, lookup_cons]
    rfl
  have hshown : shown (read a) = .error ("integer", "$.when[0].case.choose_between[0].from", "\"one\"") := by
    rw [hread]
    decide +kernel
  exact ⟨hreordered, hshown, (shown_read_eq_of_reordered hreordered).symm.trans hshown⟩

end ContractBlocks.Document
