import Exclusion.Unicode.Property

/-! # Text around white space -/

namespace Exclusion

def trimStart (s : List Char) : List Char := s.dropWhile Unicode.isWhite

def trimEnd (s : List Char) : List Char := (trimStart s.reverse).reverse

def trim (s : List Char) : List Char := trimEnd (trimStart s)

def stripEnding? (ending s : List Char) : Option (List Char) :=
  if ending.isSuffixOf s then some (s.take (s.length - ending.length)) else none

end Exclusion
