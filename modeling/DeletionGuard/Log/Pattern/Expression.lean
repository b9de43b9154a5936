import DeletionGuard.Log.Pattern.Tree

/-!
# Expressions

What a pattern asks of a text, without regard to how it is written. `Expression.ofTree` finds it
out under the flags that are in force; it fails where a pattern would need what is known of
characters outside ASCII, or could match a part of a character.
-/

namespace DeletionGuard.Pattern

/-- What is asked of a place. -/
inductive Look where
  | startText
  | stopText
  /-- Lines can also end with a carriage return, or with that and a line feed. -/
  | startLine (carriageReturns : Bool)
  | stopLine (carriageReturns : Bool)
  /-- Words are made of ASCII characters, or also of others. -/
  | word (unicode : Bool) (m : WordMark)
  deriving DecidableEq, Repr

inductive Atom where
  | chars (s : CharSet)
  | look (l : Look)
  deriving DecidableEq, Repr

inductive Expression (α : Type) where
  | empty
  | atom (a : α)
  | seq (ps : List (Expression α))
  | either (ps : List (Expression α))
  /-- At least `least` times, and at most `most` times if that is given. -/
  | times (p : Expression α) (least : Nat) (most : Option Nat)
  /-- What is matched may be kept. -/
  | kept (p : Expression α)

namespace Expression

variable {α : Type}

/-- What stands one after the other in an expression. -/
def items : Expression α → List (Expression α)
  | empty => []
  | seq ps => ps
  | p => [p]

def concat (ps : List (Expression α)) : Expression α :=
  match ps.flatMap items with
  | [] => empty
  | [p] => p
  | qs => seq qs

/-- What an expression leaves the choice of. -/
def branches : Expression α → List (Expression α)
  | either ps => ps
  | p => [p]

/-- The characters that an expression stands for, if it stands for one. -/
def chars? : Expression Atom → Option CharSet
  | atom (.chars s) => some s
  | _ => none

/-- A choice. If all branches are single characters, or all are sets of characters, it is the choice
of a character. -/
def choice (ps : List (Expression Atom)) : Expression Atom :=
  match ps.flatMap branches with
  | [p] => p
  | qs =>
    match qs.mapM chars? with
    | none => either qs
    | some sets =>
      let singles := sets.filter (·.single?.isSome)
      if singles.isEmpty || singles.length = sets.length then
        atom (.chars (CharSet.ofRanges (sets.flatMap (·.ranges))))
      else either qs

mutual

/-- Whether only places are asked for. -/
def isWidthless : Expression Atom → Bool
  | empty => true
  | atom (.chars _) => false
  | atom (.look _) => true
  | seq ps => areWidthless ps
  | either ps => areWidthless ps
  | times p _ _ => isWidthless p
  | kept p => isWidthless p

def areWidthless : List (Expression Atom) → Bool
  | [] => true
  | p :: ps => isWidthless p && areWidthless ps

end

/-- A repetition. What has no width need not come more than once. -/
def repeated (p : Expression Atom) (least : Nat) (most : Option Nat) : Expression Atom :=
  let least := if p.isWidthless then min least 1 else least
  let most := if p.isWidthless then some (min (most.getD 1) 1) else most
  if most = some 0 then empty
  else if least = 1 ∧ most = some 1 then p
  else times p least most

end Expression

/-! ## Flags -/

/-- The flags that are in force. -/
structure Mode where
  /-- A letter stands for both its cases. -/
  caseless : Bool := false
  /-- Every line of the text has a start and an end. -/
  lines : Bool := false
  /-- A point stands for line ends too. -/
  dotAll : Bool := false
  /-- A carriage return belongs to line ends. -/
  carriageReturns : Bool := false
  /-- Characters are those of Unicode and not bytes. -/
  unicode : Bool := true
  deriving DecidableEq, Repr

namespace Mode

/-- Sets or clears a flag; there are others that no search depends on. -/
def set (m : Mode) (flag : Char × Bool) : Mode :=
  match flag.1 with
  | 'i' => { m with caseless := flag.2 }
  | 'm' => { m with lines := flag.2 }
  | 's' => { m with dotAll := flag.2 }
  | 'R' => { m with carriageReturns := flag.2 }
  | 'u' => { m with unicode := flag.2 }
  | _ => m

def apply (m : Mode) (fs : Flags) : Mode :=
  fs.foldl set m

/-! ## Characters -/

/-- Names of properties that are taken for values, but of which none is known. -/
def valueNames : List String := ["cf", "sc", "lc"]

/-- A name without what does not count in it: cases, some signs and a leading "is". -/
def plainName (name : String) : String :=
  let cs := name.toList
  let cs := match cs with
    | a :: b :: rest => if a.toLower = 'i' ∧ b.toLower = 's' then rest else cs
    | _ => cs
  String.ofList ((cs.filter fun c => c.toNat < 0x80 && !" _-".contains c).map Char.toLower)

/-- No property is known, since that takes what Unicode says of characters. -/
def propertyCause (m : Mode) (name : String) : Cause :=
  if !m.unicode then .unicodeNotAllowed
  else if plainName name ∈ valueNames then .noSuchPropertyValue
  else .noSuchProperty

/-- The set that a letter stands for, which is known in ASCII only. Its complement would hold
bytes that are no characters. -/
def letters (m : Mode) (e : Extent) (kind : LetterClass) (negated : Bool) : Except Fault CharSet :=
  if m.unicode then .error ⟨.noLetterClasses, e, none⟩
  else if negated then .error ⟨.invalidUtf8, e, none⟩
  else .ok (match kind with
    | .digit => .digits
    | .space => .spaces
    | .word => .wordChars)

/-- The character of a literal, if it is not just a byte. -/
def char (m : Mode) (l : Literal) : Except Fault Char :=
  if !m.unicode && l.isByte && 0x80 ≤ l.char.toNat then .error ⟨.invalidUtf8, l.extent, none⟩
  else .ok l.char

/-- The characters that something stands for outside of sets. -/
def leaf (m : Mode) : Leaf → Except Fault CharSet
  | .literal l => do
    let c ← m.char l
    if !m.caseless then .ok (.single c)
    else if m.unicode then .error ⟨.noCases, l.extent, none⟩
    else .ok (CharSet.single c).bothCases
  | .letters e kind negated => m.letters e kind negated
  | .property e name => .error ⟨m.propertyCause name, e, none⟩

/-- The characters that a point stands for. -/
def dot (m : Mode) (e : Extent) : Except Fault CharSet :=
  if !m.unicode then .error ⟨.invalidUtf8, e, none⟩
  else if m.dotAll then .ok CharSet.empty.complement
  else if m.carriageReturns then
    .ok (CharSet.ofPairs [('\n', '\n'), ('\r', '\r')]).complement
  else .ok (CharSet.single '\n').complement

def look (m : Mode) : Assertion → Look
  | .startLine => if m.lines then .startLine m.carriageReturns else .startText
  | .stopLine => if m.lines then .stopLine m.carriageReturns else .stopText
  | .startText => .startText
  | .stopText => .stopText
  | .word w => .word m.unicode w

/-! ## Sets -/

/-- What has been gathered of a set. -/
structure Gathered where
  set : CharSet
  /-- Whether there are characters in it of which the other case is still to be added. -/
  hasBare : Bool

/-- A character in a set; where characters are bytes it must be one of ASCII. -/
def setChar (m : Mode) (l : Literal) : Except Fault Char := do
  let c ← m.char l
  if !m.unicode && 0x80 ≤ c.toNat then .error ⟨.unicodeNotAllowed, l.extent, none⟩ else .ok c

/-- Adds the other cases. -/
def withCases (m : Mode) (e : Extent) (g : Gathered) : Except Fault CharSet :=
  if !m.caseless then .ok g.set
  else if !m.unicode then .ok g.set.bothCases
  else if g.hasBare then .error ⟨.noCases, e, none⟩
  else .ok g.set

/-- The set once all has been gathered, or all that is not in it. -/
def closed (m : Mode) (e : Extent) (negated : Bool) (g : Gathered) : Except Fault CharSet := do
  let s ← m.withCases e g
  let s := if negated then s.complement else s
  if !m.unicode && !s.isAscii then .error ⟨.invalidUtf8, e, none⟩ else .ok s

def operate (op : SetOperation) (s t : CharSet) : CharSet :=
  match op with
  | .intersection => s.intersection t
  | .difference => s.difference t
  | .symmetricDifference => s.symmetricDifference t

mutual

def gather (m : Mode) : SetTree → Except Fault Gathered
  | .empty _ => .ok ⟨.empty, false⟩
  | .leaf (.literal l) => do return ⟨.single (← m.setChar l), true⟩
  | .leaf l => do return ⟨← m.leaf l, false⟩
  | .range _ low high => do return ⟨.range (← m.setChar low) (← m.setChar high), true⟩
  | .named e set negated => do return ⟨← m.closed e negated ⟨set, true⟩, false⟩
  | .bracketed e negated t => do return ⟨← m.closed e negated (← gather m t), false⟩
  | .union _ ts => gatherAll m ⟨.empty, false⟩ ts
  | .operation _ op left right => do
    let l ← gather m left
    let r ← gather m right
    let t ← m.withCases right.extent r
    let s ← m.withCases left.extent l
    return ⟨operate op s t, false⟩

/-- Adds the items of a set to what has been gathered. -/
def gatherAll (m : Mode) (g : Gathered) : List SetTree → Except Fault Gathered
  | [] => .ok g
  | t :: ts =>
    match gather m t with
    | .error f => .error f
    | .ok h => gatherAll m ⟨g.set.union h.set, g.hasBare || h.hasBare⟩ ts

end

end Mode

/-! ## Meanings -/

namespace Expression

mutual

/-- What a tree asks for, and the flags that are in force behind it. -/
def ofTree (m : Mode) : Tree → Except Fault (Expression Atom × Mode)
  | .empty _ => .ok (empty, m)
  | .flags _ fs => .ok (empty, m.apply fs)
  | .leaf l => do return (atom (.chars (← m.leaf l)), m)
  | .dot e => do return (atom (.chars (← m.dot e)), m)
  | .assertion _ a => .ok (atom (.look (m.look a)), m)
  | .set e negated t => do return (atom (.chars (← m.closed e negated (← m.gather t))), m)
  | .times _ t least most => do
    let (p, m') ← ofTree m t
    return (p.repeated least most, m')
  | .group _ fs isKept t => do
    let (p, _) ← ofTree (m.apply fs) t
    return (if isKept then kept p else p, m)
  | .seq _ ts => do
    let (ps, m') ← ofTrees m [] ts
    return (concat ps, m')
  | .either _ ts => do
    let (ps, m') ← ofTrees m [] ts
    return (choice ps, m')

/-- The same for trees one after the other, behind `before`, which is reversed. -/
def ofTrees (m : Mode) (before : List (Expression Atom)) :
    List Tree → Except Fault (List (Expression Atom) × Mode)
  | [] => .ok (before.reverse, m)
  | t :: ts =>
    match ofTree m t with
    | .error f => .error f
    | .ok (p, m') => ofTrees m' (p :: before) ts

end

end Expression

end DeletionGuard.Pattern
