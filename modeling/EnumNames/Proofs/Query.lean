import EnumNames.Proofs.Passes
import EnumNames.Proofs.Range
/-!
# How a query of names ends

A query checks its range, counts the names in it, and fills a table of that length. A refused range
ends it. Where every probe of an accepted range answers, the table is as long as it has names, and
the names are the table.
-/
namespace EnumNames.Enumeration

open Signature

variable {enumeration : Enumeration} {style : Style} {searcher : Searcher} {lower upper : Bound}
  {range : Range} {refusal : Refusal}

/-- A refused range ends a query, whatever the searcher. -/
theorem names_of_range_eq_error (refused : enumeration.range lower upper = .error refusal) :
    enumeration.names style searcher lower upper = .error (.refused refusal) := by
  rw [names, refused]
  rfl

/-- In an accepted range, the table is as long as the count. -/
theorem names_of_range_eq_ok (accepted : enumeration.range lower upper = .ok range) :
    enumeration.names style searcher lower upper =
      insist (enumeration.count style searcher range) >>= fun length =>
        insist (enumeration.table style searcher range length) := by
  rw [names, accepted]
  rfl

/-- Where every probe of an accepted range answers, a query gives the names. -/
theorem names_of_answered (accepted : enumeration.range lower upper = .ok range)
    (answered : Answered (enumeration.nameAt style) range) :
    enumeration.names style .sequential lower upper =
      .ok (namesIn (enumeration.nameAt style) range) := by
  have counted := answered.count_eq
  have filled : enumeration.table style .sequential range
      (namesIn (enumeration.nameAt style) range).length =
        .ok (namesIn (enumeration.nameAt style) range) := by
    rw [answered.table_eq, if_neg (Nat.lt_irrefl _), if_neg (Nat.lt_irrefl _)]
  rw [names_of_range_eq_ok accepted, counted]
  simp only [insist, Except.mapError, bind, Except.bind, filled]

end EnumNames.Enumeration
