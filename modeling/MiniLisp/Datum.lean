import MiniLisp.Headroom
import MiniLisp.Keyword
import MiniLisp.Value.Basic

/-!
Quoted data: integers, booleans and symbols, and lists of these. A quoted expression that is a
special form becomes the list that spells it. As a value a list is a chain of pairs in new cells.
-/

namespace MiniLisp

/-- What a quoted expression stands for. -/
inductive Datum where
  | int (n : Int)
  | bool (b : Bool)
  | symbol (name : String)
  | list (items : List Datum)

namespace Datum

/-- The datum that an atom spells: an integer, a boolean, or else a symbol. -/
def ofAtom (text : String) : Except DigitLimit Datum := do
  match ← Numeral.read text with
  | some n => .ok (.int n)
  | none =>
    if text = trueWord then .ok (.bool true)
    else if text = falseWord then .ok (.bool false)
    else .ok (.symbol text)

mutual

/-- The value of a datum whose pairs are made in the cells from `next` on, and the next free cell. -/
def place : Datum → Nat → Value × Nat
  | .int n, next => (.int n, next)
  | .bool b, next => (.bool b, next)
  | .symbol name, next => (.symbol name, next)
  | .list items, next => placeItems items next

/-- The chain of pairs that holds the values of several data. -/
def placeItems : List Datum → Nat → Value × Nat
  | [], next => (.nil, next)
  | item :: items, next =>
    let (head, next) := item.place next
    let (tail, next) := placeItems items next
    (.pair next head tail, next + 1)

end

end Datum

namespace Expr

mutual

/-- The datum of a quoted expression. A question with its answer is data only inside a
conditional. -/
def datum (room : Headroom) : Expr → Except Fault Datum
  | .literal text => do
    room.enter
    Fault.ofDigits (Datum.ofAtom text)
  | .identifier name => do
    room.enter
    .ok (.symbol name)
  | .empty => do
    room.enter
    .ok (.list [])
  | .app func args => do
    room.enter
    let head ← datum (room.below 1) func
    let rest ← dataOf (room.below 2) args
    .ok (.list (head :: rest))
  | .quote d => do
    room.enter
    let inner ← datum (room.below 2) d
    .ok (.list [.symbol Keyword.quote.word, inner])
  | .lambda params body => do
    room.enter
    let inner ← datum (room.below 2) body
    .ok (.list [.symbol Keyword.lambda.word, .list (params.map .symbol), inner])
  | .cond branches => do
    room.enter
    let clauses ← branchData (room.below 2) branches
    .ok (.list (.symbol Keyword.cond.word :: clauses))
  | .branch question answer => do
    room.enter
    let found := Expr.branch question answer
    .error (room.report found.debugFrames (.unquotable found))

/-- The data of several expressions, from left to right. -/
def dataOf (room : Headroom) : List Expr → Except Fault (List Datum)
  | [] => .ok []
  | e :: es => do
    let item ← datum room e
    let items ← dataOf room es
    .ok (item :: items)

/-- The data of the branches of a conditional: for each a list of its question and its answer. -/
def branchData (room : Headroom) : List (Expr × Expr) → Except Fault (List Datum)
  | [] => .ok []
  | (question, answer) :: branches => do
    let q ← datum room question
    let a ← datum room answer
    let clauses ← branchData room branches
    .ok (.list [q, a] :: clauses)

end

end Expr

end MiniLisp
