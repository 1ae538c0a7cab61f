import SqlSelect.Schema.Basic
/-!
The students and classrooms of the demonstration.
-/

namespace SqlSelect.Demo

def student : Entity where
  name := "Student"
  table? := "PQ_Student"
  fields := [
    { name := "Id", kind := .int, column? := "student_id", primaryKey := true },
    { name := "FirstName", kind := .text, column? := "first_name" },
    { name := "LastName", kind := .text, column? := "last_name" },
    { name := "DateOfBirth", kind := .datetime, column? := "birth_date" },
    { name := "ClassRoomId", kind := .int, column? := "class_room_id" }]

def classRoom : Entity where
  name := "ClassRoom"
  table? := "PQ_ClassRoom"
  fields := [
    { name := "Id", kind := .int, column? := "class_room_id", primaryKey := true },
    { name := "Grade", kind := .int, column? := "grade" },
    { name := "Section", kind := .char, column? := "section" }]

def classTeacherInfo : Entity where
  name := "ClassTeacherInfo"
  table? := "PQ_ClassTeacherInfo"
  fields := [
    { name := "ClassRoomId", kind := .int, column? := "class_room_id" },
    { name := "TeacherId", kind := .int, column? := "teacher_id" }]

def teacher : Entity where
  name := "Teacher"
  table? := "PQ_Teacher"
  fields := [
    { name := "Id", kind := .int, column? := "teacher_id", primaryKey := true },
    { name := "Name", kind := .text, column? := "teacher_name" }]

def entities : List Entity :=
  [student, classRoom, classTeacherInfo, teacher]

def entity? (name : String) : Option Entity :=
  entities.find? (·.name == name)

def schema : Schema := ⟨entities⟩

end SqlSelect.Demo
