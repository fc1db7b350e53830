import DocDirective.Arguments.Token
import DocDirective.Parameters

/-!
# Arguments — Entry

The entries of an argument list, read from its tokens.  An entry is a value with or without a key
in front; a value is a literal, a word or, at the top level only, a list of literals and words in
parentheses.  A comma may stand behind the last entry.
-/

namespace DocDirective.Arguments

/-- A value and the key in front of it, in lower case. -/
structure Entry where
  key?  : Option String
  value : Value

/-- The value of a word: a truth value, a number, or its own text. -/
def wordValue (w : String) : Except Failure Value :=
  let folded := Text.lowered w
  if folded = "true" then .ok (.bool true)
  else if folded = "false" then .ok (.bool false)
  else match Numeral.read? w.toList with
    | some n =>
      if n.isWhole then
        match n.toInt with
        | .ok i    => .ok (.int i)
        | .error o => .error (.overlong o)
      else .ok (.float n.toBinary64)
    | none => .ok (.text w)

/-- The value of a literal or a word. -/
def atomValue : Token → Except Failure Value
  | .mark m    => .error (.problem (.unexpected (some (.mark m))))
  | .literal s => .ok (.text s)
  | .word w    => wordValue w

/-- The text of a literal or a word. -/
def Token.text : Token → String
  | .mark m    => String.singleton m.char
  | .literal s => s
  | .word w    => w

/-- The values of a list and the tokens behind it; the tokens start after its opening parenthesis
or after one of its commas. -/
def items : List Token → Except Failure (List Value × List Token)
  | []                     => .error (.problem (.unexpected none))
  | .mark .closing :: rest => .ok ([], rest)
  | .mark .opening :: _    => .error (.problem .nestedTooDeep)
  | .mark m :: _           => .error (.problem (.unexpected (some (.mark m))))
  | _ :: .mark .colon :: _ => .error (.problem .keyedInList)
  | t :: rest              => do
    let v ← atomValue t
    match rest with
    | .mark .closing :: rest => return ([v], rest)
    | .mark .comma :: rest   => do
      let r ← items rest
      return (v :: r.1, r.2)
    | rest                   => .error (.problem (.expected .comma rest.head?))

/-- A value at the top level and the tokens behind it. -/
def topValue : List Token → Except Failure (Value × List Token)
  | []                     => .error (.problem (.unexpected none))
  | .mark .opening :: rest => do
    let r ← items rest
    return (.list r.1, r.2)
  | t :: rest              => do
    let v ← atomValue t
    return (v, rest)

/-- The key in front of an entry, in lower case, and the tokens of its value. -/
def splitKey : List Token → Option String × List Token
  | .literal s :: .mark .colon :: rest => (some (Text.lowered s), rest)
  | .word w :: .mark .colon :: rest    => (some (Text.lowered w), rest)
  | ts                                 => (none, ts)

/-- An entry at the top level and the tokens behind it. -/
def entry (ts : List Token) : Except Failure (Entry × List Token) := do
  let r ← topValue (splitKey ts).2
  return (⟨(splitKey ts).1, r.1⟩, r.2)

theorem length_of_items {ts rest : List Token} {vs : List Value}
    (h : items ts = .ok (vs, rest)) : rest.length < ts.length := by
  fun_induction items ts generalizing vs with
  | case1 => simp at h
  | case2 r =>
    simp only [Except.ok.injEq, Prod.mk.injEq] at h
    simp [h.2]
  | case3 => simp at h
  | case4 => simp at h
  | case5 => simp at h
  | case6 t =>
    cases hv : atomValue t with
    | error e => simp [hv, bind, Except.bind] at h
    | ok v =>
      simp only [hv, bind, Except.bind] at h
      split at h
      · simp only [pure, Except.pure, Except.ok.injEq, Prod.mk.injEq] at h
        simp only [h.2, List.length_cons]
        omega
      · rename_i r' _ ih
        cases hi : items r' with
        | error e => simp [hi] at h
        | ok p =>
          simp only [hi, pure, Except.pure, Except.ok.injEq, Prod.mk.injEq] at h
          have hr : items r' = .ok (p.1, rest) := by rw [hi, ← h.2]
          have := ih hr
          simp only [List.length_cons]
          omega
      · simp at h

theorem length_of_topValue {ts rest : List Token} {v : Value}
    (h : topValue ts = .ok (v, rest)) : rest.length < ts.length := by
  unfold topValue at h
  split at h
  · simp at h
  · rename_i r
    cases hi : items r with
    | error e => simp [hi, bind, Except.bind] at h
    | ok p =>
      simp only [hi, bind, Except.bind, pure, Except.pure, Except.ok.injEq, Prod.mk.injEq] at h
      have hr : items r = .ok (p.1, rest) := by rw [hi, ← h.2]
      have := length_of_items hr
      simp only [List.length_cons]
      omega
  · rename_i t r _
    cases hv : atomValue t with
    | error e => simp [hv, bind, Except.bind] at h
    | ok w =>
      simp only [hv, bind, Except.bind, pure, Except.pure, Except.ok.injEq, Prod.mk.injEq] at h
      simp [h.2]

theorem length_splitKey_le (ts : List Token) : (splitKey ts).2.length ≤ ts.length := by
  unfold splitKey
  split <;> simp only [List.length_cons] <;> omega

theorem length_of_entry {ts rest : List Token} {e : Entry}
    (h : entry ts = .ok (e, rest)) : rest.length < ts.length := by
  unfold entry at h
  cases hv : topValue (splitKey ts).2 with
  | error e => simp [hv, bind, Except.bind] at h
  | ok p =>
    simp only [hv, bind, Except.bind, pure, Except.pure, Except.ok.injEq, Prod.mk.injEq] at h
    have hr : topValue (splitKey ts).2 = .ok (p.1, rest) := by rw [hv, ← h.2]
    have := length_of_topValue hr
    have := length_splitKey_le ts
    omega

/-- The entries of the top level and the tokens behind it; the tokens start after its opening
parenthesis or after one of its commas. -/
def entries (ts : List Token) : Except Failure (List Entry × List Token) :=
  match ts with
  | .mark .closing :: rest => .ok ([], rest)
  | ts                     =>
    match h : entry ts with
    | .error e                     => .error e
    | .ok (e, .mark .closing :: rest) => .ok ([e], rest)
    | .ok (e, .mark .comma :: rest)   =>
      have := length_of_entry h
      (entries rest).map fun r => (e :: r.1, r.2)
    | .ok (_, rest)                => .error (.problem (.expected .comma rest.head?))
  termination_by ts.length
  decreasing_by simp_all only [List.length_cons]; omega

/-- The entries that a whole list of tokens stands for. -/
def parse : List Token → Except Failure (List Entry)
  | .mark .opening :: rest => do
    let r ← entries rest
    match r.2 with
    | []     => return r.1
    | t :: _ => .error (.problem (.unexpected (some t)))
  | ts                     => .error (.problem (.expected .opening ts.head?))

/-- The parameters that entries give: an entry whose key is absent or empty is positional, and of
two entries with one key the later value stands at the earlier place. -/
def collect (es : List Entry) : Parameters :=
  es.foldl (fun p e => match e.key? with
    | some k => if k.isEmpty then p.add e.value else p.set k e.value
    | none   => p.add e.value) .empty

/-- The parameters that an argument text stands for. -/
def evaluate (text : String) : Except Failure Parameters := do
  let ts ← Token.ofText text
  let es ← parse ts
  return collect es

end DocDirective.Arguments
