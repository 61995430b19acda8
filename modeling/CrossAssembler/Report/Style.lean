import CrossAssembler.Text.Numeral

namespace CrossAssembler.Report

private def styled (on off : String) (s : String) : String :=
  "\x1b[" ++ on ++ "m" ++ s ++ "\x1b[" ++ off ++ "m"

def red : String → String := styled "31" "39"

def green : String → String := styled "32" "39"

def yellow : String → String := styled "33" "39"

def blue : String → String := styled "34" "39"

def bold : String → String := styled "1" "22"

def dim : String → String := styled "2" "22"

def underlined : String → String := styled "4" "24"

def alarming (s : String) : String :=
  "\x1b[31m\x1b[1m" ++ s ++ "\x1b[39m\x1b[22m"

def left (width : Nat) (s : String) : String :=
  String.ofList (Text.padEnd width ' ' s.toList)

def right (width : Nat) (s : String) : String :=
  String.ofList (Text.padStart width ' ' s.toList)

def rule (width : Nat) : String :=
  String.ofList (List.replicate width '-')

end CrossAssembler.Report
