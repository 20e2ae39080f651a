import Postmortem.Lexical.Lexicon

/-!
# Overlaps between tokens

A lexer that looks for several tokens at once may find another one than a lexer that looks for
fewer. An `Overlap` says in which ways the texts of one token can get in the way of the texts of
another; states of an automaton may share a lexer only if their tokens do not overlap.
-/

namespace Postmortem.Lexical

/-- How the texts of one token relate to those of another. -/
structure Overlap where
  /-- Some text is read as this token although it could be the other. -/
  winsSame : Bool := false
  /-- Some text belongs to this token and cannot be continued to the other. -/
  differs : Bool := false
  /-- This token is complete where the other goes on, and is preferred. -/
  stopsShort : Bool := false
  /-- This token goes on where the other is complete, and is preferred. -/
  goesOn : Bool := false
  /-- It does so with a character that may also begin what follows the other token. -/
  goesOnValidly : Bool := false
  /-- This token can be complete while a blank may still come. -/
  holdsBlank : Bool := false
deriving BEq, Inhabited

namespace Overlap

/-- Whether adding this token to a lexer can change how the other one is read. -/
def conflicts (o : Overlap) : Bool := o.goesOnValidly || o.holdsBlank || o.winsSame

/-- Whether a text of this token touches the other in any way. -/
def touches (o : Overlap) : Bool := o.holdsBlank || o.stopsShort || o.winsSame || o.goesOn

end Overlap

namespace Lexicon

variable (lx : Lexicon)

/-- A walk over the common readings of two tokens. -/
structure Walk where
  seen : Std.HashMap Reading Unit := {}
  open_ : List Reading
  left : Overlap := {}
  right : Overlap := {}

/-- Notes what one reading of tokens `i` and `j` shows, and opens the readings after it. `afterI`
and `afterJ` tell which classes may follow each token. -/
def Walk.visit (i : Nat) (afterI afterJ : Nat → Bool) (w : Walk) (reading : Reading) : Walk :=
  match reading with
  | [] => w
  | [(t, _)] =>
    if t == i then { w with left := { w.left with differs := true } }
    else { w with right := { w.right with differs := true } }
  | _ =>
    let blank := lx.admitsBlank reading
    let mark (w : Walk) (t : Nat) (f : Overlap → Overlap) : Walk :=
      if t == i then { w with left := f w.left } else { w with right := f w.right }
    let done := reading.filter fun (t, s) => (lx.recognizer t).isAccepting s
    let w := if blank then done.foldl (fun w (t, _) => mark w t ({ · with holdsBlank := true })) w
      else w
    let complete := lx.complete reading
    let w := match complete with
      | some t => if done.length > 1 then mark w t ({ · with winsSame := true }) else w
      | none => w
    let visitClass (w : Walk) (k : Nat) : Walk :=
      match lx.step reading k with
      | [] => w
      | next =>
        let w := match complete, next with
          | some c, [(t, _)] =>
            if t == c then w
            else if lx.prefersLonger reading c next then
              let valid := if t == i then afterJ k else afterI k
              mark w t fun o => { o with goesOn := true, goesOnValidly := o.goesOnValidly || valid }
            else mark w c ({ · with stopsShort := true })
          | _, _ => w
        if w.seen.contains next then w
        else { w with seen := w.seen.insert next (), open_ := next :: w.open_ }
    (List.range lx.alphabet.size).foldl visitClass w

/-- Visits open readings until none is left; `fuel` bounds their number. -/
def Walk.run (i : Nat) (afterI afterJ : Nat → Bool) : Nat → Walk → Walk
  | 0, w => w
  | fuel + 1, w =>
    match w.open_ with
    | [] => w
    | reading :: rest => run i afterI afterJ fuel (Walk.visit lx i afterI afterJ { w with open_ := rest } reading)

/-- The overlaps of token `i` with token `j` and of `j` with `i`. -/
def overlaps (i j : Nat) (afterI afterJ : Nat → Bool) : Overlap × Overlap :=
  let w := Walk.run lx i afterI afterJ Recognizer.stateLimit
    { open_ := [start [i, j]] }
  (w.left, w.right)

end Lexicon

end Postmortem.Lexical
