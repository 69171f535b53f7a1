import Golavo.Facts.History

/-! # Event templates

Templates that read half-time scores, goal minutes and shootouts. -/

namespace Golavo.Facts

/-- At most one candidate for each side, the home side's first. -/
def forSides (ctx : TemplateContext) (propose : String → Except FactError (Option Candidate)) :
    Except FactError (List Candidate) := do
  let home ← propose ctx.homeTeam
  let away ← propose ctx.awayTeam
  return home.toList ++ away.toList

/-! ## Half-time -/

/-- The rows with a recorded half-time score that compares so. -/
def atHalfTime (compare : Int → Int → Bool) (history : List PerspectiveRow) : List PerspectiveRow :=
  history.filter fun r =>
    match r.htGf, r.htGa with
    | some gf, some ga => compare gf ga
    | _, _ => false

/-- What a team made of its half-time deficits. -/
def comebackOf (team : String) (deficits : List PerspectiveRow) : Except FactError Candidate := do
  let n : Int := deficits.length
  let wins := tally (·.result = .win) deficits
  let draws := tally (·.result = .draw) deficits
  let d := countNumber "ht_deficits" n
  let w := countNumber "comeback_wins" wins
  let dr := countNumber "comeback_draws" draws
  let numbers ← NumberBag.items [d, w, dr]
  return {
    subject := team
    text := phrase [.words "After trailing at half-time in ", .number d,
      .words " matches in this data, ", .name team, .words " recovered to win ", .number w,
      .words " and draw ", .number dr, .words "."]
    values := [("ht_deficits", .int n), ("comeback_wins", .int wins),
      ("comeback_draws", .int draws)]
    numbers := numbers
    sampleN := n
    denominator := n
    baseRate := some ((wins + draws) / n)
    firstDate := earliest (deficits.map (·.date))
    lastDate := latest (deficits.map (·.date))
    specificity := clampUnit ((wins + draws) / n) }

/-- Wins and draws after trailing at half-time (`ht_comeback_record`). -/
def htComebackRecord (_ : Rendering) (ctx : TemplateContext) :
    Except FactError (List Candidate) :=
  forSides ctx fun team => do
    let history ← teamPerspective ctx.rows team
    let deficits := atHalfTime (· < ·) history
    if deficits = [] then return none else some <$> comebackOf team deficits

end Golavo.Facts
