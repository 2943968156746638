import SchemaForge.Source.Line

/-! The Java class of functions that the other classes share. -/
namespace SchemaForge
namespace JavaUtilities
open Source

/-- Tests of arguments. -/
def checks : List String :=
  [""] ++
  doc ["Constructor."] ++
  block "private GeneratorUtils()" [] ++
  [""] ++
  doc ["Throws if the object is null.", "", "@param object Object to to check.",
      "@param message Format string message.", "@param values Format values.",
      "@param <T> Type of object."] ++
  block "public static <T> void notNull(T object, String message, Object... values)" (
    block "if (object == null)"
      ["throw new NullPointerException(String.format(message, values));"]) ++
  [""] ++
  doc ["Throws if the value is not true.", "", "@param expression Expression to check.",
      "@param message Format string message.", "@param values Format values."] ++
  block "public static void isTrue(boolean expression, String message, Object... values)" (
    block "if (!expression)"
      ["throw new IllegalArgumentException(String.format(message, values));"]) ++
  [""] ++
  doc ["Throws if the value is not false.", "", "@param expression Expression to check.",
      "@param message Format string message.", "@param values Format values."] ++
  block "public static void isFalse(boolean expression, String message, Object... values)"
    ["isTrue(!expression, message, values);"]

/-- Unsigned numbers and sets of flags. -/
def conversions : List String :=
  [""] ++
  doc ["Converts to an int by an unsigned conversion.", "", "@param value Signed byte.",
      "@return Positive integer."] ++
  block "public static int toUnsignedInt(final byte value)" ["return Byte.toUnsignedInt(value);"] ++
  [""] ++
  doc ["Converts to an int by an unsigned conversion.", "", "@param value Signed short.",
      "@return Positive integer."] ++
  block "public static int toUnsignedInt(final short value)"
    ["return Short.toUnsignedInt(value);"] ++
  [""] ++
  doc ["Creates a bitwise representation for an Set.", "", "@param enumClass Enum type.",
      "@param enumSet EnumSet to convert to bit representation.", "@param <T> Type of enum.",
      "@return Long value of the EnumSet."] ++
  ["public static <T extends Enum<T> & BitMaskable> long toLong(final Class<T> enumClass,"] ++
  block "    final Set<T> enumSet)" (
    ["final T[] enumValues = enumClass.getEnumConstants();",
      "isFalse(enumValues.length > Long.SIZE,",
      "    \"The number of enum constants is greater than \" + Long.SIZE);", "long result = 0;"] ++
    block "for (final T value : enumValues)" (
      block "if (enumSet.contains(value))" ["result += value.getValueAsLong();"]) ++
    ["return result;"]) ++
  [""] ++
  doc ["Creates a EnumSet from from a bit representation.", "", "@param enumClass Enum class.",
      "@param bitMaskValue Bitmask value.", "@param <T> Enum type.",
      "@return EnumSet representing the long value."] ++
  ["public static <T extends Enum<T> & BitMaskable> EnumSet<T> toSet(final Class<T> enumClass,"] ++
  block "    final long bitMaskValue)" (
    ["final EnumSet<T> results = EnumSet.noneOf(enumClass);"] ++
    block "for (final T constant : enumClass.getEnumConstants())" (
      block "if (0 != (constant.getValueAsLong() & bitMaskValue))" ["results.add(constant);"]) ++
    ["return results;"])

/-- Exceptions, and calls that may raise them. -/
def exceptions : List String :=
  [""] ++
  doc ["Gets a runtime exception to propagates from an exception.", "",
      "@param exception Exception to propagate.",
      "@param wrap Function that wraps an exception in a runtime exception.",
      "@param <E> Specific exception type.", "@return RuntimeException to throw."] ++
  ["public static <E extends RuntimeException> RuntimeException getExceptionToPropagate(",
    "    final Exception exception,"] ++
  block "    final Function<Exception, E> wrap)" (
    ["if ((exception instanceof ExecutionException) && (RuntimeException.class"] ++
    block "    .isAssignableFrom(exception.getCause().getClass())))"
      ["return (RuntimeException) exception.getCause();"] ++
    block "if (exception instanceof RuntimeException)" ["return (RuntimeException) exception;"] ++
    block "if (exception instanceof InterruptedException)"
      ["Thread.currentThread().interrupt();", "return new IllegalStateException(exception);"] ++
    ["return wrap.apply(exception);"]) ++
  [""] ++
  doc ["Gets a runtime exception to propagates from an exception.", "",
      "@param exception Exception to propagate.", "@param <E> Specific exception type.",
      "@return RuntimeException to throw."] ++
  ["public static <E extends RuntimeException> RuntimeException getExceptionToPropagate("] ++
  block "    final Exception exception)"
    ["return getExceptionToPropagate(exception, RuntimeException::new);"] ++
  [""] ++
  doc ["Propagates checked exceptions as a specific runtime exception.", "",
      "@param callable Function to call.",
      "@param wrap Function that wraps an exception in a runtime exception.",
      "@param <T> Return type.", "@param <E> Specific exception type.",
      "@return Function result."] ++
  ["public static <T, E extends RuntimeException> T propagate(final Callable<T> callable,"] ++
  block "    final Function<Exception, E> wrap)" (
    chain [
      ("try", ["return callable.call();"]),
      ("catch (final Exception e)", ["throw getExceptionToPropagate(e, wrap);"])]) ++
  [""] ++
  doc ["Propagates checked exceptions as a runtime exception.", "",
      "@param callable Function to call.", "@param <T> Function return type.",
      "@return Function result."] ++
  block "public static <T> T propagate(final Callable<T> callable)"
    ["return propagate(callable, RuntimeException::new);"]

/-- Writing to streams. -/
def streams : List String :=
  ["", "", ""] ++
  doc ["Throwing consumer interface.", "", "@param <T> Input type.",
      "@param <E> Exception that is thrown."] ++
  block "public interface ThrowingConsumer<T, E extends Exception>" (
    [""] ++
    doc ["Performs operation on the given argument.", "", "@param t Input argument.",
        "@throws E Exception that is thrown."] ++
    ["void accept(T t) throws E;"]) ++
  [""] ++
  doc ["Serializes data using a helper function to write to the stream.", "",
      "@param consumer Helper function that writes data to DataOutputStream.",
      "@return Byte array of data written."] ++
  block "public static byte[] serialize(ThrowingConsumer<DataOutputStream, Exception> consumer)" (
    blockWith "return propagate(() ->" ");" (
      ["try (final ByteArrayOutputStream byteArrayStream = new ByteArrayOutputStream();"] ++
      block "    final DataOutputStream dataOutputStream = new DataOutputStream(byteArrayStream))"
        ["consumer.accept(dataOutputStream);", "return byteArrayStream.toByteArray();"]))

/-- Padding between the elements of arrays. -/
def padding : List String :=
  [""] ++
  doc ["It moves the output stream pointer the padding size calculated from the payload size", "",
      "@param size the payload size used to calcualted the padding",
      "@param dataInputStream the input stream that will be moved the calcauted padding size",
      "@param alignment Next multiple alignment"] ++
  ["public static void skipPadding(int size,"] ++
  block "    final DataInputStream dataInputStream, int alignment)" (
    blockWith "GeneratorUtils.propagate(() ->" ");"
      ["int padding = getPadding(size, alignment);", "dataInputStream.skipBytes(padding);",
        "return null;"]) ++
  [""] ++
  doc ["This method writes 0 into the dataOutputStream. The amount of 0s is the calculated padding",
      "size from provided payload size.", "",
      "@param size the payload size used to calcualted the padding",
      "@param dataOutputStream used to write the 0s.", "@param alignment Next multiple alignment"] ++
  ["public static void addPadding(int size, final DataOutputStream dataOutputStream,"] ++
  block "    int alignment)" (
    blockWith "GeneratorUtils.propagate(() ->" ");" (
      ["int padding = getPadding(size, alignment);"] ++
      block "while (padding > 0)" ["dataOutputStream.write(0);", "padding--;"] ++
      ["return null;"])) ++
  [""] ++
  doc ["It calcualtes the padding that needs to be added/skipped when processing inner transactions.",
      "", "@param size the size of the payload using to calculate the padding",
      "@param alignment Next multiple alignment", "@return the padding to be added/skipped."] ++
  block "public static int getPadding(int size, int alignment)" (
    block "if (alignment == 0)" ["return 0;"] ++
    ["return 0 == size % alignment ? 0 : alignment - (size % alignment);"])

/-- Reading and writing of arrays. -/
def arrays : List String :=
  [""] ++
  doc ["It reads count elements from the stream and creates a list using the builder", "",
      "@param builder the builder", "@param stream the stream",
      "@param count the elements to be read", "@param alignment Next multiple alignment",
      "@param <T> the the type to be returned", "@return a list of T."] ++
  ["public static <T extends Serializer> List<T> loadFromBinaryArray(",
    "    final Function<DataInputStream, T> builder,"] ++
  block "    final DataInputStream stream, final long count, final int alignment)" (
    ["List<T> list = new java.util.ArrayList<>();"] ++
    block "for (int i = 0; i < count; i++)"
      ["final T entity = builder.apply(stream);", "list.add(entity);",
        "GeneratorUtils.skipPadding(entity.getSize(), stream, alignment);"] ++
    ["return list;"]) ++
  ["", ""] ++
  doc ["It reads all the remaining entities using the total payload size.", "",
      "@param builder the entity builder", "@param stream the stream to read from",
      "@param payloadSize the payload size", "@param alignment alignment Next multiple alignment",
      "@param <T> the type of the entity", "@return a list of entities",
      "@throws IOException when data cannot be loaded."] ++
  ["public static <T extends Serializer> List<T> loadFromBinaryArrayRemaining(",
    "    final Function<DataInputStream, T> builder, DataInputStream stream, int payloadSize,",
    "    int alignment)"] ++
  block "    throws IOException" (
    ["final ByteBuffer byteCount = ByteBuffer.allocate(payloadSize);",
      "stream.read(byteCount.array());",
      "final DataInputStream dataInputStream = new DataInputStream(",
      "    new ByteArrayInputStream(byteCount.array()));",
      "List<T> entities = new java.util.ArrayList<>();"] ++
    block "while (dataInputStream.available() > 0)"
      ["T entity = builder.apply(dataInputStream);", "entities.add(entity);",
        "GeneratorUtils.skipPadding(entity.getSize(), dataInputStream, alignment);"] ++
    ["return entities;"]) ++
  [""] ++
  doc ["It reads all the remaining entities until the end.", "",
      "@param builder the entity builder", "@param stream the stream to read from",
      "@param alignment alignment Next multiple alignment", "@param <T> the type of the entity",
      "@return a list of entities", "@throws IOException when data cannot be loaded."] ++
  ["public static <T extends Serializer> List<T> loadFromBinaryArrayRemaining(",
    "    final Function<DataInputStream, T> builder, DataInputStream stream,",
    "    int alignment)"] ++
  block "    throws IOException" (
    ["List<T> entities = new java.util.ArrayList<>();"] ++
    block "while (stream.available() > 0)"
      ["T entity = builder.apply(stream);", "entities.add(entity);",
        "GeneratorUtils.skipPadding(entity.getSize(), stream, alignment);"] ++
    ["return entities;"]) ++
  [""] ++
  doc ["Write a list of catbuffer entities into the writer.", "",
      "@param dataOutputStream the stream to serialize into",
      "@param entities the entities to be serialized",
      "@param alignment alignment Next multiple alignment",
      "@throws IOException when data cannot be written."] ++
  ["public static void writeList(final DataOutputStream dataOutputStream,"] ++
  block "    final List<? extends Serializer> entities, int alignment) throws IOException" (
    block "for (Serializer entity : entities)"
      ["final byte[] entityBytes = entity.serialize();",
        "dataOutputStream.write(entityBytes, 0, entityBytes.length);",
        "GeneratorUtils.addPadding(entityBytes.length, dataOutputStream, alignment);"]) ++
  [""] ++
  doc ["Write a serializer into the writer.", "",
      "@param dataOutputStream the stream to serialize into",
      "@param entity the entities to be serialized",
      "@throws IOException when data cannot be written."] ++
  ["public static void writeEntity(final DataOutputStream dataOutputStream, final Serializer entity)"] ++
  block "    throws IOException"
    ["final byte[] entityBytes = entity.serialize();",
      "dataOutputStream.write(entityBytes, 0, entityBytes.length);"]

/-- Sizes of buffers and collections. -/
def sizes : List String :=
  [""] ++
  doc ["Read a \x7b@link ByteBuffer\x7d of the given size form the strem", "",
      "@param stream the stream", "@param size the size of the buffer to read",
      "@return the buffer", "@throws IOException when data cannot be read"] ++
  ["public static ByteBuffer readByteBuffer(final DataInputStream stream, final int size)"] ++
  block "    throws IOException"
    ["ByteBuffer buffer = ByteBuffer.allocate(size);", "stream.readFully(buffer.array());",
      "return buffer;"] ++
  [""] ++
  doc ["Returns the size of the buffer.", "", "@param buffer the buffer", "@return its size"] ++
  block "public static int getSize(final ByteBuffer buffer)" ["return buffer.array().length;"] ++
  [""] ++
  doc ["Returns the size of the collection", "", "@param collection the collection",
      "@return the size."] ++
  block "public static int getSize(final Collection<?> collection)" ["return collection.size();"] ++
  [""] ++
  doc ["Returns the size of the collection", "", "@param collection the collection",
      "@param alignment alignment Next multiple alignment", "@return the size."] ++
  block "public static int getSumSize(final Collection<? extends Serializer> collection, int alignment)" (
    ["return collection.stream()"] ++
    indent (blockWith ".mapToInt(o ->" ").sum();"
        ["final int size = o.getSize();",
          "return size + GeneratorUtils.getPadding(size, alignment);"]))

/-- Bytes as hexadecimal text. -/
def hex : List String :=
  ["", "private static final char[] HEX_ARRAY = \"0123456789ABCDEF\".toCharArray();", ""] ++
  doc ["Basic to hex function that converts a byte array to an hex", "", "@param bytes the bytes",
      "@return the hex representation."] ++
  block "public static String toHex(byte[] bytes)" (
    ["char[] hexChars = new char[bytes.length * 2];"] ++
    block "for (int j = 0; j < bytes.length; j++)"
      ["int v = bytes[j] & 0xFF;", "hexChars[j * 2] = HEX_ARRAY[v >>> 4];",
        "hexChars[j * 2 + 1] = HEX_ARRAY[v & 0x0F];"] ++
    ["return new String(hexChars);"]) ++
  [""] ++
  doc ["Basic from hex to byte array function.", "", "@param hex the hex string",
      "@return the byte array."] ++
  block "public static byte[] hexToBytes(String hex)" (
    ["int len = hex.length();", "byte[] data = new byte[len / 2];"] ++
    block "for (int i = 0; i < len; i += 2)"
      ["data[i / 2] = (byte) ((Character.digit(hex.charAt(i), 16) << 4)",
        "    + Character.digit(hex.charAt(i + 1), 16));"] ++
    ["return data;"]) ++
  [""] ++
  doc ["It writes the builder into a file for future unit testing.", "",
      "@param <T> the type of the builder.", "@param builder the builder.",
      "@param file the file to append.", "@return the builder"] ++
  block "public static <T extends Serializer> T writeBuilderToFile(T builder, String file)" (
    chain [
      ("try (FileWriter writer = new FileWriter(new File(file), true))",
        ["String payload = toHex(builder.serialize());",
          "String builderName = builder.getClass().getSimpleName();",
          "writer.write(\"- builder: \" + builderName + \"\\n\");",
          "writer.write(\"  payload: \" + payload + \"\\n\");", "return builder;"]),
      ("catch (Exception e)", ["throw new IllegalArgumentException(e);"])])

/-- The text of the class. -/
def source : String :=
  text <|
    ["import java.io.ByteArrayInputStream;", "import java.io.ByteArrayOutputStream;",
      "import java.io.DataInputStream;", "import java.io.DataOutputStream;",
      "import java.io.File;", "import java.io.FileWriter;", "import java.io.IOException;",
      "import java.nio.ByteBuffer;", "import java.util.Collection;", "import java.util.EnumSet;",
      "import java.util.List;", "import java.util.Set;", "import java.util.concurrent.Callable;",
      "import java.util.concurrent.ExecutionException;", "import java.util.function.Function;",
      ""] ++
    doc ["Generator utility class."] ++
    block "public final class GeneratorUtils" (
      checks ++ conversions ++ exceptions ++ streams ++ padding ++ arrays ++ sizes ++ hex) ++
    ["", "", "", ""]

end JavaUtilities
end SchemaForge
