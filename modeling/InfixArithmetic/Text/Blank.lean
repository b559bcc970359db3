namespace InfixArithmetic.Text

/-- The characters with the Unicode property White_Space. -/
def isBlank (c : Char) : Bool :=
  let code := c.toNat
  (0x9 ≤ code && code ≤ 0xd) || code == 0x20 || code == 0x85 || code == 0xa0 || code == 0x1680 ||
    (0x2000 ≤ code && code ≤ 0x200a) || code == 0x2028 || code == 0x2029 || code == 0x202f ||
    code == 0x205f || code == 0x3000

/-- The maximal runs of characters that are not blank, in order. -/
def atoms : List Char → List (List Char)
  | [] => []
  | c :: cs =>
      if isBlank c then
        atoms cs
      else
        match atoms cs with
        | [] => [[c]]
        -- The atom that follows is continued only if it starts right here.
        | atom :: rest =>
            if cs.head?.any isBlank then [c] :: atom :: rest else (c :: atom) :: rest

end InfixArithmetic.Text
