/-!
Colours of terminal text.
-/

namespace SqlSelect.Command

inductive Style where
  | heading
  | alarm
  | dimmed
  | title
  | name
  | value
  | plain
deriving DecidableEq

namespace Style

def codes : Style → String
  | heading => "1;36"
  | alarm => "1;31"
  | dimmed => "2"
  | title => "36"
  | name => "32"
  | value => "33"
  | plain => "37"

def escape (codes : String) : String :=
  "\x1b[" ++ codes ++ "m"

def reset : String := escape "0"

-- Where the text resets the colours, they are set again.
def apply (coloured : Bool) (style : Style) (text : String) : String :=
  if coloured then
    let set := escape style.codes
    set ++ text.replace reset (reset ++ set) ++ reset
  else text

def coloured (environment : String → Option String) (terminal : Bool) : Bool :=
  match environment "CLICOLOR_FORCE" with
  | some "0" | none =>
    (environment "NO_COLOR").isNone && environment "CLICOLOR" != some "0" && terminal
  | some _ => true

end Style

end SqlSelect.Command
