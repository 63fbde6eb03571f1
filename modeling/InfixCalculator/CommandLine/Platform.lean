/-!
# Platforms

A program depends on the system and the libraries that it runs on: they limit how deep calls may be
nested, write lines, and give texts about themselves.
-/

namespace InfixCalculator

structure Platform where
  /-- How many expressions may be read at one time where a single one is evaluated. -/
  evaluationLimit : Nat
  /-- The same in a session, which reads them some calls deeper. -/
  sessionLimit : Nat
  /-- What is written for a line, with the end of the line. -/
  echo : String → String
  /-- What a session writes for a line, with the end of the line. -/
  print : String → String
  about : List String
  help : String

end InfixCalculator
